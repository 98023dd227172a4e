import Mathlib
import SearchQuery.Condition.Query
import SearchQuery.Proofs.Token.Terms
import SearchQuery.Proofs.Token.Written

-- Queries in brackets, alone or put together: each asks for the same condition as without
-- the brackets.

namespace SearchQuery.Condition

open Token (Reads Solid bracketed dashed)

variable {v : Vocabulary} {query : String} {c : Condition} {t : Token} {tokens : List Token}
  {cs : List Condition}

theorem ofQuery_eq_ok :
    ofQuery v query = .ok (some c) ↔
      ∃ ts, Token.read query = .ok (some ts) ∧ ofToken v (Token.gather ts) = .ok c := by
  unfold ofQuery
  cases Token.read query with
  | error e => simp [Except.bind]
  | ok tokens? =>
      cases tokens? with
      | none => simp [Except.bind]
      | some ts => cases h : ofToken v (Token.gather ts) <;> simp [Except.bind, Except.map, h]

theorem ofToken_negate (v : Vocabulary) (k : Nat) (h : ofToken v t = .ok c) :
    ofToken v (Token.negate k t) = .ok (not^[k] c) := by
  induction k with
  | zero => exact h
  | succ k ih =>
      rw [Token.negate, ofToken, ih, Function.iterate_succ_apply']
      rfl

-- A query that holds a term and asks for the condition.
structure Asks (v : Vocabulary) (query : String) (c : Condition) : Prop where
  term : (Text.words query).any Token.isTerm = true
  asks : ofQuery v query = .ok (some c)

-- In brackets, with any dashes before them, a query is one token for its condition.
theorem Asks.exists_token (h : Asks v query c) :
    ∃ t, Solid t ∧ ofToken v t = .ok c ∧
      ∀ k, Reads (Text.words (dashed k (bracketed query))) [Token.negate k t] := by
  obtain ⟨ts, hread, hc⟩ := ofQuery_eq_ok.mp h.asks
  obtain ⟨-, found, hreads, hresolve⟩ := Token.read_eq_ok.mp hread
  have hne := hreads.ne_nil_of_term (fun w hw => Text.isWord_of_mem_words hw) hresolve h.term
  exact ⟨Token.gather ts, Token.solid_gather hne (hreads.solid hresolve), hc,
    fun k => hreads.bracketed hresolve k⟩

theorem exists_tokens {queries : List String} (h : List.Forall₂ (Asks v) queries cs) :
    ∃ tokens,
      List.Forall₂ (fun text t => Reads (Text.words text) [t]) (queries.map bracketed) tokens ∧
        (∀ t ∈ tokens, Solid t) ∧ ofTokens v tokens = .ok cs := by
  induction h with
  | nil => exact ⟨[], .nil, List.forall_mem_nil _, rfl⟩
  | @cons query c queries cs hasks _ ih =>
      obtain ⟨t, hsolid, hc, hreads⟩ := hasks.exists_token
      obtain ⟨tokens, hall, hsolids, hcs⟩ := ih
      have hread := hreads 0
      rw [Token.dashed_zero] at hread
      refine ⟨t :: tokens, .cons hread hall, List.forall_mem_cons.mpr ⟨hsolid, hsolids⟩, ?_⟩
      rw [ofTokens, hc, hcs]
      rfl

-- Brackets keep what a query asks for, whatever stands before and after them: dashes negate
-- it, and queries in brackets are combined, with blanks between them by `and` and with bars
-- between them by `or`.
theorem ofQuery_bracketed {queries : List String}
    (h : List.Forall₂ (Asks v) (query :: queries) (c :: cs)) :
    (∀ k, ofQuery v (dashed k (bracketed query)) = .ok (some (not^[k] c))) ∧
      (queries ≠ [] →
        ofQuery v (" ".intercalate ((query :: queries).map bracketed)) =
            .ok (some (and (c :: cs))) ∧
          ofQuery v (" | ".intercalate ((query :: queries).map bracketed)) =
            .ok (some (or (c :: cs)))) := by
  refine ⟨fun k => ?_, fun hne => ?_⟩
  · cases h with
    | cons hasks _ =>
        obtain ⟨t, hsolid, hc, hreads⟩ := hasks.exists_token
        have hresolve := Token.resolve_of_solid
          (List.forall_mem_singleton.mpr (Token.solid_negate k hsolid))
        have hread := Token.read_of_reads (hreads k) hresolve (List.cons_ne_nil _ _)
        exact ofQuery_eq_ok.mpr ⟨_, hread, ofToken_negate v k hc⟩
  · obtain ⟨tokens, hall, hsolid, hcs⟩ := exists_tokens h
    have hlen : 2 ≤ tokens.length := by
      have hpos := List.length_pos_of_ne_nil hne
      have heq := hall.length_eq
      simp only [List.length_map, List.length_cons] at heq
      omega
    have hnil : tokens ≠ [] := List.ne_nil_of_length_pos (by omega)
    constructor
    · have hread := Token.read_of_reads (.spaced hall) (Token.resolve_of_solid hsolid) hnil
      refine ofQuery_eq_ok.mpr ⟨_, hread, ?_⟩
      rw [Token.gather_of_two_le hlen, ofToken, hcs]
      rfl
    · have hread := Token.read_of_reads (.barred hall) (Token.resolve_barred hlen hsolid)
        (List.cons_ne_nil _ _)
      refine ofQuery_eq_ok.mpr ⟨_, hread, ?_⟩
      rw [Token.gather_singleton, ofToken, hcs]
      rfl

-- A choice and a negation in brackets, negated twice, side by side and as branches.
theorem ofQuery_bracketed_choice :
    let v : Vocabulary := ⟨(NameMap.empty.insert "a" .flag).insert "b" .flag⟩
    let c := or [flag "a", flag "b"]
    List.Forall₂ (Asks v) ["a | b", " -( a b )"] [c, not (and [flag "a", flag "b"])] ∧
      ofQuery v "--( a | b )" = .ok (some (not (not c))) ∧
      ofQuery v "( a | b ) (  -( a b ) )" =
        .ok (some (and [c, not (and [flag "a", flag "b"])])) ∧
      ofQuery v "( a | b ) | (  -( a b ) )" =
        .ok (some (or [c, not (and [flag "a", flag "b"])])) := by
  intro v c
  have hfirst : Asks v "a | b" c := ⟨by cbv, by cbv⟩
  have hsecond : Asks v " -( a b )" (not (and [flag "a", flag "b"])) :=
    ⟨by cbv, by cbv⟩
  have hall := List.Forall₂.cons hfirst (.cons hsecond .nil)
  obtain ⟨hnot, htwo⟩ := ofQuery_bracketed hall
  obtain ⟨hand, hor⟩ := htwo (List.cons_ne_nil _ _)
  exact ⟨hall, hnot 2, hand, hor⟩

end SearchQuery.Condition
