import Mathlib
import SearchQuery.Proofs.Token.Dashes
import SearchQuery.Proofs.Token.Reading

-- The terms of a query, the words that say what is searched for, and the number of
-- negations that each of them is under. Tokens have the terms of their words, in order.

namespace SearchQuery.Token

-- A word that is no bar, does not open or close a group, and is not dashes only.
def isTerm (text : String) : Bool :=
  text != "|" && text != ")" && withoutDashes text != "(" && withoutDashes text != ""

def terms (words : List String) : List String :=
  (words.filter isTerm).map withoutDashes

-- The terms with the number of dashes that count for each, those before the term itself and
-- those before every group around it. `opened` has the dashes of the groups that are open,
-- the innermost first.
def signedTerms (opened : List Nat) : List String → List (String × Nat)
  | [] => []
  | text :: words =>
      if withoutDashes text = "(" then signedTerms (dashes text :: opened) words
      else if text = ")" then signedTerms opened.tail words
      else if isTerm text then
        (withoutDashes text, dashes text + opened.sum) :: signedTerms opened words
      else signedTerms opened words

mutual

-- The texts in a token from left to right, each with the number of negations around it if
-- there are `n` around the token.
def signed (n : Nat) : Token → List (String × Nat)
  | word text => [(text, n)]
  | negated token => signed (n + 1) token
  | group tokens => signedAll n tokens
  | choice branches => signedAll n branches

def signedAll (n : Nat) : List Token → List (String × Nat)
  | [] => []
  | token :: tokens => signed n token ++ signedAll n tokens

end

theorem signedAll_append (n : Nat) (tokens others : List Token) :
    signedAll n (tokens ++ others) = signedAll n tokens ++ signedAll n others := by
  induction tokens with
  | nil => rfl
  | cons token tokens ih => rw [List.cons_append, signedAll, ih, signedAll, List.append_assoc]

theorem signed_negate (n k : Nat) (token : Token) :
    signed n (negate k token) = signed (n + k) token := by
  induction k generalizing n with
  | zero => rfl
  | succ k ih => rw [negate, signed, ih, Nat.add_assoc, Nat.add_comm 1]

theorem signed_gather (n : Nat) (tokens : List Token) :
    signed n (gather tokens) = signedAll n tokens := by
  match tokens with
  | [] => rfl
  | [token] => simp [gather, signedAll]
  | _ :: _ :: _ => rfl

theorem signedAll_map_gather (n : Nat) (parts : List (List Token)) :
    signedAll n (parts.map gather) = signedAll n parts.flatten := by
  induction parts with
  | nil => rfl
  | cons p parts ih =>
      rw [List.map_cons, signedAll, signed_gather, ih, List.flatten_cons, signedAll_append]

-- The tokens of a level that hold terms.
def holding (tokens : List Token) : List Token :=
  (kept tokens).filter fun t => !t.isBar

theorem filter_intercalate {parts : List (List Token)}
    (h : ∀ p ∈ parts, ∀ t ∈ p, t.isBar = false) :
    ([bar].intercalate parts).filter (fun t => !t.isBar) = parts.flatten := by
  induction parts with
  | nil => rfl
  | cons p parts ih =>
      obtain ⟨hp, hparts⟩ := List.forall_mem_cons.mp h
      have hall : p.filter (fun t => !t.isBar) = p :=
        List.filter_eq_self.mpr fun t ht => by simp [hp t ht]
      cases parts with
      | nil => simpa using hall
      | cons q parts =>
          rw [List.intercalate_cons_cons, List.filter_append, List.filter_append, hall,
            ih hparts, List.flatten_cons]
          simp [isBar, bar]

-- Neither dropping what is empty nor making a choice moves a term or its sign.
theorem signedAll_resolve {tokens ts : List Token} (h : resolve tokens = .ok ts) (n : Nat) :
    signedAll n ts = signedAll n (holding tokens) := by
  rcases eq_of_resolve h with ⟨rfl, hbars⟩ | ⟨parts, hwhole, -, hparts, rfl⟩
  · rw [holding, List.filter_eq_self.mpr fun t ht => by simp [hbars t ht]]
  · rw [holding, hwhole, filter_intercalate fun p hp => (hparts p hp).2, ← signedAll_map_gather,
      signedAll, signed, signedAll, List.append_nil]

theorem holding_cons (t : Token) (tokens : List Token) :
    holding (t :: tokens) =
      if t.looksEmpty || t.isBar then holding tokens else t :: holding tokens := by
  cases hempty : t.looksEmpty <;> cases hbar : t.isBar <;> simp [holding, kept, hempty, hbar]

section Reads

variable {words : List String} {found ts : List Token} {query : String}

theorem isBlank_withoutDashes {text : String} (h : Text.IsWord text) :
    Text.isBlank (withoutDashes text) = true ↔ withoutDashes text = "" := by
  constructor
  · intro hblank
    by_contra hne
    rw [Text.isBlank_of_isWord (isWord_withoutDashes h hne)] at hblank
    cases hblank
  · intro hnil
    rw [hnil]
    rfl

-- Among the words that stand for themselves, the terms are those whose tokens count and
-- are no bars.
theorem isTerm_eq {text : String} (h : Text.IsWord text) (htext : IsText text) :
    isTerm text = !((negate (dashes text) (word (withoutDashes text))).looksEmpty ||
      (negate (dashes text) (word (withoutDashes text))).isBar) := by
  rw [looksEmpty_negate, looksEmpty, Bool.eq_iff_iff, Bool.not_eq_true', Bool.or_eq_false_iff,
    ← Bool.not_eq_true, ← Bool.not_eq_true, isBar_negate_word, isBlank_withoutDashes h]
  simp [isTerm, htext.1, htext.ne_close, and_comm]

-- What is read from words has their terms, whatever groups are open around them.
theorem Reads.signedTerms_append (h : Reads words found) (hwords : ∀ w ∈ words, Text.IsWord w)
    (opened : List Nat) (rest : List String) :
    signedTerms opened (words ++ rest) =
      signedAll opened.sum (holding found) ++ signedTerms opened rest := by
  induction h generalizing opened rest with
  | nil => rfl
  | @text text words tokens htext after ih =>
      obtain ⟨hword, hwords⟩ := List.forall_mem_cons.mp hwords
      rw [List.cons_append, signedTerms, if_neg htext.1, if_neg htext.ne_close, isTerm_eq hword htext,
        ih hwords, holding_cons]
      cases (negate (dashes text) (word (withoutDashes text))).looksEmpty ||
        (negate (dashes text) (word (withoutDashes text))).isBar with
      | true => simp
      | false => simp [signedAll, signed_negate, signed, Nat.add_comm]
  | @group text inner words found resolved tokens hopen inside hresolve after ihinside ihafter =>
      obtain ⟨hinner, hafter⟩ := forall_mem_of_group hwords
      have hclose : signedTerms (dashes text :: opened) (")" :: (words ++ rest)) =
          signedTerms opened (words ++ rest) := by
        rw [signedTerms, if_neg (by decide), if_pos rfl, List.tail_cons]
      rw [List.cons_append, signedTerms, if_pos hopen, List.append_assoc, List.cons_append,
        ihinside hinner, hclose, ihafter hafter, holding_cons, ← signedAll_resolve hresolve,
        looksEmpty_negate, List.sum_cons, Nat.add_comm (dashes text)]
      cases resolved with
      | nil => rfl
      | cons t ts =>
          have hsolid := solid_gather (List.cons_ne_nil t ts) (inside.solid hresolve)
          rw [hsolid.looks_full, (solid_negate (dashes text) hsolid).not_bar]
          simp [signedAll, signed_negate, signed_gather]

theorem map_fst_signedTerms (opened : List Nat) (words : List String) :
    (signedTerms opened words).map Prod.fst = terms words := by
  induction words generalizing opened with
  | nil => rfl
  | cons text words ih =>
      rw [signedTerms]
      by_cases hopen : withoutDashes text = "("
      · have hterm : isTerm text = false := by simp [isTerm, hopen]
        rw [if_pos hopen, ih, terms, terms, List.filter_cons_of_neg (by simp [hterm])]
      · by_cases hclose : text = ")"
        · have hterm : isTerm text = false := by simp [isTerm, hclose]
          rw [if_neg hopen, if_pos hclose, ih, terms, terms,
            List.filter_cons_of_neg (by simp [hterm])]
        · rw [if_neg hopen, if_neg hclose]
          cases hterm : isTerm text with
          | true => simp [ih, terms, hterm]
          | false => simp [ih, terms, hterm]

theorem Reads.signedAll_eq (h : Reads words found) (hwords : ∀ w ∈ words, Text.IsWord w)
    (hresolve : resolve found = .ok ts) : signedAll 0 ts = signedTerms [] words := by
  have hterms := h.signedTerms_append hwords [] []
  rw [List.append_nil, signedTerms, List.append_nil] at hterms
  rw [signedAll_resolve hresolve, hterms]
  rfl

-- Words with a term among them have tokens.
theorem Reads.ne_nil_of_term (h : Reads words found) (hwords : ∀ w ∈ words, Text.IsWord w)
    (hresolve : resolve found = .ok ts) (hterm : words.any isTerm = true) : ts ≠ [] := by
  rintro rfl
  obtain ⟨w, hw, hterm⟩ := List.any_eq_true.mp hterm
  have hmem : withoutDashes w ∈ terms words :=
    List.mem_map_of_mem (List.mem_filter.mpr ⟨hw, hterm⟩)
  rw [← map_fst_signedTerms [], ← h.signedAll_eq hwords hresolve] at hmem
  cases hmem

-- Every term of a query is in its tokens once, in its place and with its sign.
theorem signedAll_of_read (h : Token.read query = .ok (some ts)) :
    (signedAll 0 ts).map Prod.fst = terms (Text.words query) ∧
      signedAll 0 ts = signedTerms [] (Text.words query) := by
  obtain ⟨-, found, hread, hresolve⟩ := read_eq_ok.mp h
  have hsigned := hread.signedAll_eq (fun w hw => Text.isWord_of_mem_words hw) hresolve
  exact ⟨by rw [hsigned, map_fst_signedTerms], hsigned⟩

end Reads

theorem signedAll_of_read_nested :
    let query := "a -( b | --c -( - ) ) -|"
    let ts := [word "a", negated (choice [word "b", negated (negated (word "c"))]), negated (word "|")]
    Token.read query = .ok (some ts) ∧
      (signedAll 0 ts).map Prod.fst = terms (Text.words query) ∧
      signedAll 0 ts = signedTerms [] (Text.words query) ∧
      signedTerms [] (Text.words query) = [("a", 0), ("b", 1), ("c", 3), ("|", 1)] := by
  intro query ts
  have hread : Token.read query = .ok (some ts) := by cbv
  obtain ⟨hterms, hsigned⟩ := signedAll_of_read hread
  exact ⟨hread, hterms, hsigned, by cbv⟩

end SearchQuery.Token
