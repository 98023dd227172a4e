import Mathlib.Data.List.Forall2
import SearchQuery.Error
import SearchQuery.Proofs.Token.Resolve

-- How words are read as tokens, told without positions: a group is any words that are
-- read as tokens, between a `(` and a `)`. Scanning finds just these readings.

namespace SearchQuery.Token

-- A word that neither opens nor closes a group, with any dashes before it.
def IsText (text : String) : Prop :=
  withoutDashes text ≠ "(" ∧ withoutDashes text ≠ ")"

theorem IsText.ne_close {text : String} (h : IsText text) : text ≠ ")" := by
  rintro rfl
  exact absurd rfl h.2

theorem ne_close_of_open {text : String} (h : withoutDashes text = "(") : text ≠ ")" := by
  rintro rfl
  exact absurd h (by decide)

-- What a word can be to the groups of a query.
theorem role (text : String) :
    text = ")" ∨ withoutDashes text = "(" ∨ (text ≠ ")" ∧ withoutDashes text = ")") ∨
      IsText text := by
  by_cases hclose : text = ")"
  · exact .inl hclose
  by_cases hopen : withoutDashes text = "("
  · exact .inr (.inl hopen)
  by_cases hdashed : withoutDashes text = ")"
  · exact .inr (.inr (.inl ⟨hclose, hdashed⟩))
  · exact .inr (.inr (.inr ⟨hopen, hdashed⟩))

-- Words, and the tokens that a level finds in them before it drops the empty ones and
-- looks for bars.
inductive Reads : List String → List Token → Prop
  | nil : Reads [] []
  | text {text : String} {words : List String} {tokens : List Token} (h : IsText text)
      (rest : Reads words tokens) :
      Reads (text :: words) (negate (dashes text) (word (withoutDashes text)) :: tokens)
  | group {text : String} {inner words : List String} {found resolved tokens : List Token}
      (h : withoutDashes text = "(") (inside : Reads inner found)
      (hresolve : resolve found = .ok resolved) (rest : Reads words tokens) :
      Reads (text :: (inner ++ ")" :: words)) (negate (dashes text) (gather resolved) :: tokens)

section Scanned

variable {g : Bool} {start pos : Nat} {text : String} {words rest : List String}
  {tokens : List Token} {level : Level}

-- The outcome of a scan, without the bound on what is left of the words.
def scanned (inGroup : Bool) (start pos : Nat) (words : List String) (tokens : List Token) :
    Except GroupingError Level :=
  (scanLevel inGroup start pos words tokens).map Subtype.val

def closed (start stop next : Nat) (rest : List String) (tokens : List Token) :
    Except GroupingError Level :=
  match resolve tokens.reverse with
  | .ok resolved => .ok ⟨resolved, next, rest⟩
  | .error fault => .error ⟨fault, start, stop⟩

theorem map_close (start stop next : Nat) (rest : List String) (tokens : List Token) :
    (close start stop next rest tokens).map Subtype.val = closed start stop next rest tokens := by
  unfold close closed
  cases resolve tokens.reverse <;> rfl

theorem scanned_unclosed (start pos : Nat) (tokens : List Token) :
    scanned true start pos [] tokens = .error ⟨.unclosed, start - 1, pos⟩ := by
  rw [scanned, scanLevel]
  rfl

theorem scanned_nil (start pos : Nat) (tokens : List Token) :
    scanned false start pos [] tokens = closed start pos pos [] tokens := by
  rw [scanned, scanLevel, ← map_close]
  rfl

theorem scanned_close (start pos : Nat) (rest : List String) (tokens : List Token) :
    scanned true start pos (")" :: rest) tokens = closed start pos (pos + 1) rest tokens := by
  rw [scanned, scanLevel, ← map_close, if_pos rfl, if_pos rfl]
  cases close start pos (pos + 1) rest tokens <;> rfl

theorem scanned_unopened (start pos : Nat) (rest : List String) (tokens : List Token) :
    scanned false start pos (")" :: rest) tokens = .error ⟨.unopened, 0, pos + 1⟩ := by
  rw [scanned, scanLevel]
  rfl

theorem scanned_dashed_close (hne : text ≠ ")") (h : withoutDashes text = ")") :
    scanned g start pos (text :: rest) tokens = .error ⟨.unopened, 0, pos + 1⟩ := by
  rw [scanned, scanLevel, if_neg hne, if_neg (by simp [h]), if_pos h]
  rfl

theorem scanned_open (h : withoutDashes text = "(") :
    scanned g start pos (text :: rest) tokens =
      (scanned true (pos + 1) (pos + 1) rest []).bind fun inner =>
        scanned g start inner.next inner.rest
          (negate (dashes text) (gather inner.tokens) :: tokens) := by
  rw [scanned, scanLevel, if_neg (ne_close_of_open h), if_pos h]
  unfold scanned
  cases scanLevel true (pos + 1) (pos + 1) rest [] with
  | error e => rfl
  | ok inner =>
      show (Except.map _ (Except.map _ (scanLevel g start inner.val.next inner.val.rest _))) =
        Except.map _ (scanLevel g start inner.val.next inner.val.rest _)
      cases scanLevel g start inner.val.next inner.val.rest
        (negate (dashes text) (gather inner.val.tokens) :: tokens) <;> rfl

theorem scanned_text (h : IsText text) :
    scanned g start pos (text :: rest) tokens =
      scanned g start (pos + 1) rest
        (negate (dashes text) (word (withoutDashes text)) :: tokens) := by
  rw [scanned, scanLevel, if_neg h.ne_close, if_neg h.1, if_neg h.2]
  unfold scanned
  cases scanLevel g start (pos + 1) rest
    (negate (dashes text) (word (withoutDashes text)) :: tokens) <;> rfl

theorem length_rest_le (h : scanned g start pos words tokens = .ok level) :
    level.rest.length ≤ words.length := by
  unfold scanned at h
  cases hscan : scanLevel g start pos words tokens with
  | error e =>
      rw [hscan] at h
      cases h
  | ok found =>
      rw [hscan] at h
      cases h
      exact found.property

theorem closed_eq_ok {start stop next : Nat} :
    closed start stop next rest tokens = .ok level ↔
      resolve tokens.reverse = .ok level.tokens ∧ level.next = next ∧ level.rest = rest := by
  unfold closed
  cases resolve tokens.reverse with
  | error fault => simp
  | ok resolved =>
      obtain ⟨found, after, left⟩ := level
      simp [eq_comm]

end Scanned

-- What follows the words of a level: the `)` of a group and the words after it, or nothing.
def ending : Bool → List String → List String
  | true, rest => ")" :: rest
  | false, _ => []

section Adequacy

-- Induction on the number of words: a group leaves fewer words than it began with.
theorem reads_of_scanned {g : Bool} {start pos : Nat} {words : List String}
    {tokens : List Token} {level : Level} (h : scanned g start pos words tokens = .ok level) :
    ∃ read found, Reads read found ∧ words = read ++ ending g level.rest ∧
      resolve (tokens.reverse ++ found) = .ok level.tokens := by
  match words with
  | [] =>
      cases g with
      | true =>
          rw [scanned_unclosed] at h
          cases h
      | false =>
          rw [scanned_nil, closed_eq_ok] at h
          exact ⟨[], [], .nil, rfl, by simpa using h.1⟩
  | text :: rest =>
      rcases role text with rfl | hopen | ⟨hne, hclose⟩ | htext
      · cases g with
        | true =>
            rw [scanned_close, closed_eq_ok] at h
            obtain ⟨hresolve, -, rfl⟩ := h
            exact ⟨[], [], .nil, rfl, by simpa using hresolve⟩
        | false =>
            rw [scanned_unopened] at h
            cases h
      · rw [scanned_open hopen] at h
        cases hinner : scanned true (pos + 1) (pos + 1) rest [] with
        | error e =>
            rw [hinner] at h
            cases h
        | ok inner =>
            rw [hinner] at h
            have hle : inner.rest.length ≤ rest.length := length_rest_le hinner
            obtain ⟨inside, hidden, hin, rfl, hresolve⟩ := reads_of_scanned hinner
            obtain ⟨after, seen, hout, hrest, houter⟩ := reads_of_scanned h
            refine ⟨text :: (inside ++ ")" :: after), _, .group hopen hin hresolve hout, ?_, ?_⟩
            · simp [ending, hrest]
            · simpa using houter
      · rw [scanned_dashed_close hne hclose] at h
        cases h
      · rw [scanned_text htext] at h
        obtain ⟨read, found, hread, hrest, hresolve⟩ := reads_of_scanned h
        refine ⟨text :: read, _, .text htext hread, ?_, ?_⟩
        · simp [hrest]
        · simpa using hresolve
termination_by words.length
decreasing_by
  · simp
  · simp only [List.length_cons]; omega
  · simp

-- Words that can be read are passed over, and their tokens are there.
theorem Reads.scanned_append {words : List String} {found : List Token}
    (h : Reads words found) (g : Bool) (start pos : Nat)
    (rest : List String) (tokens : List Token) :
    scanned g start pos (words ++ rest) tokens =
      scanned g start (pos + words.length) rest (found.reverse ++ tokens) := by
  induction h generalizing g start pos rest tokens with
  | nil => rfl
  | text htext rest ih =>
      rw [List.cons_append, scanned_text htext, ih]
      simp [Nat.add_assoc, Nat.add_comm 1]
  | @group text inner words found resolved seen hopen inside hresolve after ihinside ihafter =>
      have hinner : scanned true (pos + 1) (pos + 1) (inner ++ ")" :: (words ++ rest)) [] =
          .ok ⟨resolved, pos + 1 + inner.length + 1, words ++ rest⟩ := by
        rw [ihinside, scanned_close, closed_eq_ok]
        exact ⟨by simpa using hresolve, rfl, rfl⟩
      rw [List.cons_append, List.append_assoc, List.cons_append, scanned_open hopen, hinner]
      show scanned g start (pos + 1 + inner.length + 1) (words ++ rest) _ = _
      rw [ihafter]
      simp only [List.length_cons, List.length_append, List.reverse_cons, List.append_assoc,
        List.singleton_append]
      congr 1
      omega

theorem scanWords_eq (words : List String) :
    scanWords words = (scanned false 0 0 words []).map Level.tokens := by
  unfold scanWords scanned
  cases scanLevel false 0 0 words [] <;> rfl

-- Words have the tokens that their readings come to.
theorem scanWords_eq_ok {words : List String} {ts : List Token} :
    scanWords words = .ok ts ↔ ∃ found, Reads words found ∧ resolve found = .ok ts := by
  rw [scanWords_eq]
  constructor
  · intro h
    cases hscan : scanned false 0 0 words [] with
    | error e =>
        rw [hscan] at h
        cases h
    | ok level =>
        rw [hscan] at h
        cases h
        obtain ⟨read, found, hread, rfl, hresolve⟩ := reads_of_scanned hscan
        exact ⟨found, by simpa [ending] using hread, hresolve⟩
  · rintro ⟨found, hread, hresolve⟩
    have hscan := hread.scanned_append false 0 0 [] []
    rw [List.append_nil, scanned_nil, List.append_nil] at hscan
    rw [hscan, closed, List.reverse_reverse, hresolve]
    rfl

theorem read_eq (query : String) :
    Token.read query =
      match Text.words query with
      | [] => .ok none
      | words => ((scanWords words).map some).mapError fun e => .grouping e.fault (excerpt words e) := by
  unfold Token.read scan
  cases Text.words query <;> rfl

theorem read_of_words_ne_nil {query : String} (h : Text.words query ≠ []) :
    Token.read query =
      ((scanWords (Text.words query)).map some).mapError fun e =>
        .grouping e.fault (excerpt (Text.words query) e) := by
  rw [read_eq]
  cases hwords : Text.words query with
  | nil => exact absurd hwords h
  | cons text words => rfl

theorem read_eq_ok {query : String} {ts : List Token} :
    Token.read query = .ok (some ts) ↔
      Text.words query ≠ [] ∧ ∃ found, Reads (Text.words query) found ∧ resolve found = .ok ts := by
  rw [read_eq, ← scanWords_eq_ok]
  cases Text.words query with
  | nil => simp
  | cons text words =>
      cases hscan : scanWords (text :: words) <;> simp [Except.map, Except.mapError, hscan]

theorem read_eq_none {query : String} :
    Token.read query = .ok none ↔ Text.words query = [] := by
  rw [read_eq]
  cases Text.words query with
  | nil => simp
  | cons text words =>
      cases hscan : scanWords (text :: words) <;> simp [Except.map, Except.mapError, hscan]

-- A query in whose words there are tokens is not blank.
theorem read_of_reads {query : String} {found ts : List Token}
    (h : Reads (Text.words query) found) (hresolve : resolve found = .ok ts) (hne : ts ≠ []) :
    Token.read query = .ok (some ts) := by
  refine read_eq_ok.mpr ⟨fun hnil => ?_, found, h, hresolve⟩
  rw [hnil] at h
  cases h
  cases hresolve
  exact hne rfl

end Adequacy

section Reads

variable {words : List String} {found ts : List Token}

-- The words of a group and those after it.
theorem forall_mem_of_group {P : String → Prop} {text : String} {inner : List String}
    (h : ∀ w ∈ text :: (inner ++ ")" :: words), P w) : (∀ w ∈ inner, P w) ∧ ∀ w ∈ words, P w :=
  ⟨fun w hw => h w (by simp [hw]), fun w hw => h w (by simp [hw])⟩

theorem Reads.singleton {text : String} (h : IsText text) :
    Reads [text] [negate (dashes text) (word (withoutDashes text))] :=
  .text h .nil

theorem Reads.append {others : List String} {seen : List Token} (h : Reads words found)
    (hothers : Reads others seen) : Reads (words ++ others) (found ++ seen) := by
  induction h with
  | nil => exact hothers
  | text htext rest ih => exact .text htext ih
  | group hopen inside hresolve rest ihinside ih =>
      rw [List.cons_append, List.append_assoc]
      exact .group hopen inside hresolve ih

theorem Reads.flatten {lists : List (List String)} {founds : List (List Token)}
    (h : List.Forall₂ Reads lists founds) : Reads lists.flatten founds.flatten := by
  induction h with
  | nil => exact .nil
  | cons hhead _ ih => exact hhead.append ih

-- Words with a bar between each two of them.
theorem Reads.intercalate {lists : List (List String)} {founds : List (List Token)}
    (h : List.Forall₂ Reads lists founds) :
    Reads (["|"].intercalate lists) ([bar].intercalate founds) := by
  induction h with
  | nil => exact .nil
  | @cons head first lists founds hhead htail ih =>
      cases htail with
      | nil => simpa using hhead
      | cons hnext hrest =>
          rw [List.intercalate_cons_cons, List.intercalate_cons_cons]
          exact (hhead.append (.singleton ⟨by decide, by decide⟩)).append ih

-- What looks empty among the tokens of a level is empty: groups in it hold no empty token.
theorem Reads.looksEmpty_eq (h : Reads words found) :
    ∀ t ∈ found, t.looksEmpty = t.isEmpty := by
  induction h with
  | nil => simp
  | text htext rest ih =>
      exact List.forall_mem_cons.mpr ⟨looksEmpty_negate_word _ _, ih⟩
  | group hopen inside hresolve rest ihinside ih =>
      have hsolid := solid_of_resolve hresolve ihinside
      exact List.forall_mem_cons.mpr ⟨looksEmpty_negate_gather _ hsolid, ih⟩

theorem Reads.solid (h : Reads words found) (hresolve : resolve found = .ok ts) :
    ∀ t ∈ ts, Solid t :=
  solid_of_resolve hresolve h.looksEmpty_eq

end Reads

end SearchQuery.Token
