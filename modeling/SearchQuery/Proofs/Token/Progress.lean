import Mathlib.Logic.Relation
import SearchQuery.Proofs.Results
import SearchQuery.Proofs.Token.Texts

-- The course of a scan: a level goes on from token to token, and each group begins a level of its
-- own. What is found on the way looks empty only if it is empty, also where the scan fails later.

namespace SearchQuery.Token

-- A token found at a level, the position after it and the words from there on.
structure Found where
  token : Token
  next : Nat
  rest : List String

-- The token that begins with a word at position `pos`. A group takes the words up to its `)`.
def scanToken (pos : Nat) (text : String) (rest : List String) : Except GroupingError Found :=
  if withoutDashes text = "(" then
    (scanned true (pos + 1) (pos + 1) rest []).map fun inner =>
      ⟨negate (dashes text) (gather inner.tokens), inner.next, inner.rest⟩
  else if withoutDashes text = ")" then .error ⟨.unopened, 0, pos + 1⟩
  else .ok ⟨negate (dashes text) (word (withoutDashes text)), pos + 1, rest⟩

section Tokens

variable {g : Bool} {start pos : Nat} {text : String} {words rest : List String}
  {tokens : List Token} {level : Level} {found : Found} {e : GroupingError}

theorem scanToken_open (h : withoutDashes text = "(") :
    scanToken pos text rest =
      (scanned true (pos + 1) (pos + 1) rest []).map fun inner =>
        ⟨negate (dashes text) (gather inner.tokens), inner.next, inner.rest⟩ :=
  if_pos h

theorem scanToken_close (h : withoutDashes text = ")") :
    scanToken pos text rest = .error ⟨.unopened, 0, pos + 1⟩ := by
  rw [scanToken, if_neg (by simp [h]), if_pos h]

theorem scanToken_text (h : IsText text) :
    scanToken pos text rest =
      .ok ⟨negate (dashes text) (word (withoutDashes text)), pos + 1, rest⟩ := by
  rw [scanToken, if_neg h.1, if_neg h.2]

-- A level finds a token and goes on behind it.
theorem scanned_cons (hne : text ≠ ")") :
    scanned g start pos (text :: rest) tokens =
      (scanToken pos text rest).bind fun found =>
        scanned g start found.next found.rest (found.token :: tokens) := by
  rcases role text with hclose | hopen | ⟨-, hclose⟩ | htext
  · exact absurd hclose hne
  · rw [scanned_open hopen, scanToken_open hopen]
    cases scanned true (pos + 1) (pos + 1) rest [] <;> rfl
  · rw [scanned_dashed_close hne hclose, scanToken_close hclose]
    rfl
  · rw [scanned_text htext, scanToken_text htext]
    rfl

-- A group ends behind the `)` after the words that are read in it.
theorem reads_of_scanned_group (h : scanned true start pos words tokens = .ok level) :
    ∃ read found, Reads read found ∧ words = read ++ ")" :: level.rest ∧
      level.next = pos + read.length + 1 ∧ resolve (tokens.reverse ++ found) = .ok level.tokens := by
  obtain ⟨read, found, hread, rfl, hresolve⟩ := reads_of_scanned h
  rw [hread.scanned_append, ending, scanned_close, closed_eq_ok] at h
  exact ⟨read, found, hread, rfl, h.2.1, hresolve⟩

-- A query ends behind its last word.
theorem next_of_scanned_query (h : scanned false start pos words tokens = .ok level) :
    level.next = pos + words.length := by
  obtain ⟨read, found, hread, rfl, -⟩ := reads_of_scanned h
  rw [hread.scanned_append, ending, scanned_nil, closed_eq_ok] at h
  simpa [ending] using h.2.1

-- A token is read from its first word and those it takes besides.
theorem reads_of_scanToken (h : scanToken pos text rest = .ok found) :
    ∃ more, Reads (text :: more) [found.token] ∧ rest = more ++ found.rest ∧
      found.next = pos + 1 + more.length := by
  by_cases hopen : withoutDashes text = "("
  · rw [scanToken_open hopen, map_eq_ok] at h
    obtain ⟨inner, hinner, rfl⟩ := h
    obtain ⟨inside, hidden, hread, hrest, hnext, hresolve⟩ := reads_of_scanned_group hinner
    refine ⟨inside ++ [")"], .group hopen hread hresolve .nil, by simp [hrest], ?_⟩
    rw [hnext, List.length_append, List.length_singleton, Nat.add_assoc]
  by_cases hclose : withoutDashes text = ")"
  · rw [scanToken_close hclose] at h
    cases h
  · have htext : IsText text := ⟨hopen, hclose⟩
    rw [scanToken_text htext] at h
    cases h
    exact ⟨[], .singleton htext, rfl, rfl⟩

-- A word begins no token if it is a `)` too many, or if the group that it opens has an error.
theorem error_of_scanToken (h : scanToken pos text rest = .error e) :
    e = ⟨.unopened, 0, pos + 1⟩ ∨
      (withoutDashes text = "(" ∧ scanned true (pos + 1) (pos + 1) rest [] = .error e) := by
  by_cases hopen : withoutDashes text = "("
  · rw [scanToken_open hopen, map_eq_error] at h
    exact .inr ⟨hopen, h⟩
  by_cases hclose : withoutDashes text = ")"
  · rw [scanToken_close hclose] at h
    cases h
    exact .inl rfl
  · rw [scanToken_text ⟨hopen, hclose⟩] at h
    cases h

theorem bounds_of_closed {stop next : Nat} (h : closed start stop next rest tokens = .error e) :
    e.start = start ∧ e.stop = stop := by
  unfold closed at h
  split at h
  · cases h
  · cases h
    exact ⟨rfl, rfl⟩

end Tokens

-- A level at some moment of its scan: the position of its first word, the position of the next
-- word, the words from there on, and the tokens found so far, the last one first.
structure Progress where
  inGroup : Bool
  start : Nat
  pos : Nat
  words : List String
  tokens : List Token

namespace Progress

-- Before the first token of a level.
def begin (inGroup : Bool) (start : Nat) (words : List String) : Progress :=
  ⟨inGroup, start, start, words, []⟩

def outcome (p : Progress) : Except GroupingError Level :=
  scanned p.inGroup p.start p.pos p.words p.tokens

-- What a level goes on to: the level with its next token, and the level of a group that begins
-- here, whether or not it ends well. `scanned_cons` is why a scan takes these turns and no others.
inductive Leads : Progress → Progress → Prop
  | token {g : Bool} {start pos : Nat} {text : String} {rest : List String} {tokens : List Token}
      {found : Found} (hne : text ≠ ")") (h : scanToken pos text rest = .ok found) :
      Leads ⟨g, start, pos, text :: rest, tokens⟩
        ⟨g, start, found.next, found.rest, found.token :: tokens⟩
  | group {g : Bool} {start pos : Nat} {text : String} {rest : List String} {tokens : List Token}
      (hopen : withoutDashes text = "(") :
      Leads ⟨g, start, pos, text :: rest, tokens⟩ (begin true (pos + 1) rest)

def Reaches (p q : Progress) : Prop :=
  Relation.ReflTransGen Leads p q

variable {p q : Progress} {t : Token} {e : GroupingError}

theorem Leads.length_lt (h : p.Leads q) : q.words.length < p.words.length := by
  cases h with
  | token hne h =>
      obtain ⟨more, -, rfl, -⟩ := reads_of_scanToken h
      simp only [List.length_cons, List.length_append]
      omega
  | group hopen => exact Nat.lt_succ_self _

-- No scan goes on for ever.
theorem wellFounded_leads : WellFounded fun q p : Progress => p.Leads q :=
  Subrelation.wf (fun h => Leads.length_lt h) (measure fun p : Progress => p.words.length).wf

-- An error is found where the scan is, and then its excerpt reaches from the first word of the
-- level, or from before it, to there. Otherwise it is an error of what the scan leads to.
theorem error_of_outcome (h : p.outcome = .error e) :
    (e.start ≤ p.start ∧ p.pos ≤ e.stop) ∨ ∃ q, p.Leads q ∧ q.outcome = .error e := by
  obtain ⟨g, start, pos, words, tokens⟩ := p
  change scanned g start pos words tokens = .error e at h
  show (e.start ≤ start ∧ pos ≤ e.stop) ∨ _
  match words, g with
  | [], true =>
      rw [scanned_unclosed] at h
      cases h
      exact .inl ⟨Nat.sub_le start 1, Nat.le_refl pos⟩
  | [], false =>
      rw [scanned_nil] at h
      obtain ⟨hstart, hstop⟩ := bounds_of_closed h
      exact .inl ⟨hstart.le, hstop.ge⟩
  | text :: rest, g =>
      by_cases hne : text = ")"
      · subst hne
        cases g with
        | true =>
            rw [scanned_close] at h
            obtain ⟨hstart, hstop⟩ := bounds_of_closed h
            exact .inl ⟨hstart.le, hstop.ge⟩
        | false =>
            rw [scanned_unopened] at h
            cases h
            exact .inl ⟨Nat.zero_le start, Nat.le_succ pos⟩
      · rw [scanned_cons hne, bind_eq_error] at h
        rcases h with hfound | ⟨found, hfound, hafter⟩
        · rcases error_of_scanToken hfound with rfl | ⟨hopen, hinner⟩
          · exact .inl ⟨Nat.zero_le start, Nat.le_succ pos⟩
          · exact .inr ⟨_, .group hopen, hinner⟩
        · exact .inr ⟨_, .token hne hfound, hafter⟩

theorem Leads.looksEmpty_eq (h : p.Leads q) (hp : ∀ t ∈ p.tokens, t.looksEmpty = t.isEmpty) :
    ∀ t ∈ q.tokens, t.looksEmpty = t.isEmpty := by
  cases h with
  | token hne h =>
      obtain ⟨more, hread, -⟩ := reads_of_scanToken h
      exact List.forall_mem_cons.mpr ⟨hread.looksEmpty_eq _ (List.mem_singleton_self _), hp⟩
  | group hopen => exact List.forall_mem_nil _

theorem Reaches.looksEmpty_eq (h : p.Reaches q) (hp : ∀ t ∈ p.tokens, t.looksEmpty = t.isEmpty) :
    ∀ t ∈ q.tokens, t.looksEmpty = t.isEmpty := by
  induction h with
  | refl => exact hp
  | tail _ hstep ih => exact hstep.looksEmpty_eq ih

-- The look at one glance is right about all that any level of a query finds.
theorem looksEmpty_of_reaches (query : String)
    (h : (begin false 0 (Text.words query)).Reaches p) (ht : t ∈ p.tokens) :
    t.looksEmpty = t.isEmpty ∧
      (t.looksEmpty = true ↔ ∀ text ∈ t.texts, Text.isBlank text = true) := by
  have hlook : t.looksEmpty = t.isEmpty := h.looksEmpty_eq (List.forall_mem_nil _) t ht
  refine ⟨hlook, ?_⟩
  rw [hlook]
  exact isEmpty_iff

theorem looksEmpty_of_reaches_unclosed :
    let query := "( - -( ) a"
    let empty := negated (group [])
    let p : Progress := ⟨true, 1, 4, ["a"], [empty, negated (word "")]⟩
    Token.read query = .error (.grouping .unclosed query) ∧
      (begin false 0 (Text.words query)).Reaches p ∧ empty ∈ p.tokens ∧
      empty.looksEmpty = empty.isEmpty ∧
      (empty.looksEmpty = true ↔ ∀ text ∈ empty.texts, Text.isBlank text = true) := by
  intro query empty p
  have hwords : Text.words query = ["(", "-", "-(", ")", "a"] := by cbv
  have hdashes : scanToken 1 "-" ["-(", ")", "a"] =
      .ok ⟨negated (word ""), 2, ["-(", ")", "a"]⟩ := by cbv
  have hempty : scanToken 2 "-(" [")", "a"] = .ok ⟨empty, 4, ["a"]⟩ := by cbv
  have hreaches : (begin false 0 (Text.words query)).Reaches p := by
    rw [hwords]
    have hopen : Leads (begin false 0 ["(", "-", "-(", ")", "a"])
        (begin true 1 ["-", "-(", ")", "a"]) := .group (by decide)
    exact .tail (.tail (.single hopen) (.token (by decide) hdashes)) (.token (by decide) hempty)
  have hmem : empty ∈ p.tokens := List.mem_cons_self
  exact ⟨by cbv, hreaches, hmem, looksEmpty_of_reaches query hreaches hmem⟩

end Progress

end SearchQuery.Token
