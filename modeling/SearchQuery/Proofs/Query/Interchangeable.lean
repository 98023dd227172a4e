import SearchQuery.Proofs.Query.Texts
import SearchQuery.Proofs.Token.Machine

-- Tokens that may stand in for each other, because neither the groups and choices around them
-- nor what they ask for tells them apart. A query may have its words exchanged for words with
-- such tokens.

namespace SearchQuery

namespace Token

-- Tokens that have the same part in a level and ask for the same.
structure Interchangeable (v : Vocabulary) (t u : Token) : Prop where
  isEmpty_eq : t.isEmpty = u.isEmpty
  isBar_eq : t.isBar = u.isBar
  ofToken_eq : Condition.ofToken v t = Condition.ofToken v u

variable {v : Vocabulary} {t u : Token} {ts us : List Token}

section Tokens

theorem Interchangeable.refl (v : Vocabulary) (t : Token) : Interchangeable v t t :=
  ⟨rfl, rfl, rfl⟩

theorem Interchangeable.negate (h : Interchangeable v t u) (n : Nat) :
    Interchangeable v (negate n t) (negate n u) := by
  induction n with
  | zero => exact h
  | succ n ih =>
      refine ⟨ih.isEmpty_eq, rfl, ?_⟩
      rw [Token.negate, Token.negate, Condition.ofToken, Condition.ofToken, ih.ofToken_eq]

theorem allEmpty_congr (h : List.Forall₂ (Interchangeable v) ts us) :
    allEmpty ts = allEmpty us := by
  induction h with
  | nil => rfl
  | cons ht _ ih => rw [allEmpty, allEmpty, ht.isEmpty_eq, ih]

theorem ofTokens_eq (h : List.Forall₂ (Interchangeable v) ts us) :
    Condition.ofTokens v ts = Condition.ofTokens v us := by
  induction h with
  | nil => rfl
  | cons ht _ ih => rw [Condition.ofTokens, Condition.ofTokens, ht.ofToken_eq, ih]

theorem interchangeable_group (h : List.Forall₂ (Interchangeable v) ts us) :
    Interchangeable v (group ts) (group us) where
  isEmpty_eq := allEmpty_congr h
  isBar_eq := rfl
  ofToken_eq := by rw [Condition.ofToken, Condition.ofToken, ofTokens_eq h]

theorem interchangeable_choice (h : List.Forall₂ (Interchangeable v) ts us) :
    Interchangeable v (choice ts) (choice us) where
  isEmpty_eq := allEmpty_congr h
  isBar_eq := rfl
  ofToken_eq := by rw [Condition.ofToken, Condition.ofToken, ofTokens_eq h]

theorem interchangeable_gather (h : List.Forall₂ (Interchangeable v) ts us) :
    Interchangeable v (gather ts) (gather us) := by
  match h with
  | .nil => exact .refl v _
  | .cons ht .nil => exact ht
  | .cons ht (.cons hu hrest) => exact interchangeable_group (.cons ht (.cons hu hrest))

end Tokens

section Levels

theorem isEmpty_congr (h : List.Forall₂ (Interchangeable v) ts us) : ts.isEmpty = us.isEmpty := by
  cases h <;> rfl

theorem Interchangeable.eq_bar_iff (h : Interchangeable v t u) : t = bar ↔ u = bar := by
  rw [← isBar_iff, ← isBar_iff, h.isBar_eq]

theorem corresponds_passBars {branches others current words : List Token}
    (hbranches : List.Forall₂ (Interchangeable v) branches others)
    (hcurrent : List.Forall₂ (Interchangeable v) current words)
    (h : List.Forall₂ (Interchangeable v) ts us) :
    Corresponds (List.Forall₂ (Interchangeable v)) (passBars branches current ts)
      (passBars others words us) := by
  induction h generalizing branches others current words with
  | nil =>
      have hlast := List.rel_append hbranches (.cons (interchangeable_gather hcurrent) .nil)
      rw [passBars, passBars, isEmpty_congr hbranches, isEmpty_congr hcurrent, asOne_eq_gather,
        asOne_eq_gather]
      split
      · exact .ok hcurrent
      · split
        · exact .error _
        · exact .ok (.cons (interchangeable_choice hlast) .nil)
  | @cons t u _ _ ht _ ih =>
      by_cases hbar : t = bar
      · rw [hbar, ht.eq_bar_iff.mp hbar, passBars_bar, passBars_bar, isEmpty_congr hcurrent,
          asOne_eq_gather, asOne_eq_gather]
        split
        · exact .error _
        · exact ih (List.rel_append hbranches (.cons (interchangeable_gather hcurrent) .nil)) .nil
      · rw [passBars_cons hbar, passBars_cons (mt ht.eq_bar_iff.mpr hbar)]
        exact ih hbranches (List.rel_append hcurrent (.cons ht .nil))

structure Frame.Interchangeable (v : Vocabulary) (f g : Frame) : Prop where
  dashes_eq : f.dashes = g.dashes
  start_eq : f.start = g.start
  tokens : List.Forall₂ (Token.Interchangeable v) f.tokens g.tokens

variable {f g : Frame}

theorem Frame.Interchangeable.push (h : f.Interchangeable v g) (ht : Token.Interchangeable v t u) :
    (f.push t).Interchangeable v (g.push u) :=
  ⟨h.dashes_eq, h.start_eq, List.rel_append h.tokens (.cons ht .nil)⟩

theorem Frame.Interchangeable.close (h : f.Interchangeable v g) (stop : Nat) :
    Corresponds (List.Forall₂ (Token.Interchangeable v)) (f.close stop) (g.close stop) := by
  have hfull : List.Forall₂ (Token.Interchangeable v)
      (f.tokens.filter holdsWord) (g.tokens.filter holdsWord) :=
    List.rel_filter (fun t u htu => by simp only [holdsWord_eq, htu.isEmpty_eq]) h.tokens
  rw [Frame.close, Frame.close, h.start_eq]
  exact (corresponds_passBars .nil .nil hfull).mapError _

end Levels

-- A word and what may stand in its place: itself, or a word with a token that is
-- interchangeable with its own.
def SameWord (v : Vocabulary) (text other : String) : Prop :=
  text = other ∨ IsText text ∧ IsText other ∧
    Interchangeable v (negate (dashes text) (word (withoutDashes text)))
      (negate (dashes other) (word (withoutDashes other)))

namespace Machine

structure Interchangeable (v : Vocabulary) (m n : Machine) : Prop where
  pos_eq : m.pos = n.pos
  top : m.top.Interchangeable v n.top
  below : List.Forall₂ (Frame.Interchangeable v) m.below n.below

variable {m n : Machine} {text other : String} {words others : List String}

-- A word that opens or closes a group does the same to both machines.
theorem Interchangeable.step_bracket (h : m.Interchangeable v n) (hbracket : ¬IsText text) :
    Corresponds (Machine.Interchangeable v) (m.step text) (n.step text) := by
  obtain ⟨pos, top, below⟩ := m
  obtain ⟨_, other, others⟩ := n
  obtain ⟨rfl, htop, hbelow⟩ := h
  rcases role text with rfl | hopen | ⟨hne, hclose⟩ | htext
  · cases hbelow with
    | nil =>
        rw [step_unopened, step_unopened]
        exact .error _
    | cons houter hbelow =>
        rw [step_close, step_close]
        refine (htop.close pos).map fun tokens found htokens => ⟨rfl, houter.push ?_, hbelow⟩
        rw [htop.dashes_eq]
        exact (interchangeable_gather htokens).negate _
  · rw [step_open hopen, step_open hopen]
    exact .ok ⟨rfl, ⟨rfl, rfl, .nil⟩, .cons htop hbelow⟩
  · rw [step_dashed_close hne hclose, step_dashed_close hne hclose]
    exact .error _
  · exact absurd htext hbracket

theorem Interchangeable.step_text (h : m.Interchangeable v n) (htext : IsText text)
    (hother : IsText other)
    (htoken : Token.Interchangeable v (negate (dashes text) (word (withoutDashes text)))
      (negate (dashes other) (word (withoutDashes other)))) :
    Corresponds (Machine.Interchangeable v) (m.step text) (n.step other) := by
  obtain ⟨pos, top, below⟩ := m
  obtain ⟨_, first, outer⟩ := n
  obtain ⟨rfl, htop, hbelow⟩ := h
  rw [Machine.step_text htext, Machine.step_text hother]
  exact .ok ⟨rfl, htop.push htoken, hbelow⟩

theorem Interchangeable.step (h : m.Interchangeable v n) (hword : SameWord v text other) :
    Corresponds (Machine.Interchangeable v) (m.step text) (n.step other) := by
  rcases hword with rfl | ⟨htext, hother, htoken⟩
  · by_cases htext : IsText text
    · exact h.step_text htext htext (.refl v _)
    · exact h.step_bracket htext
  · exact h.step_text htext hother htoken

theorem Interchangeable.finish (h : m.Interchangeable v n) :
    Corresponds (List.Forall₂ (Token.Interchangeable v)) m.finish n.finish := by
  obtain ⟨pos, top, below⟩ := m
  obtain ⟨_, other, others⟩ := n
  obtain ⟨rfl, htop, hbelow⟩ := h
  cases hbelow with
  | nil => exact htop.close pos
  | cons houter hbelow =>
      rw [Machine.finish, Machine.finish, htop.start_eq]
      exact .error _

theorem Interchangeable.run (h : m.Interchangeable v n)
    (hwords : List.Forall₂ (SameWord v) words others) :
    Corresponds (List.Forall₂ (Token.Interchangeable v)) (m.run words) (n.run others) := by
  induction hwords generalizing m n with
  | nil => exact h.finish
  | cons hword _ ih =>
      rw [Machine.run, Machine.run]
      exact (h.step hword).bind fun _ _ hnext => ih hnext

end Machine

theorem corresponds_scanWords {words others : List String}
    (h : List.Forall₂ (SameWord v) words others) :
    Corresponds (List.Forall₂ (Interchangeable v)) (scanWords words) (scanWords others) := by
  rw [← Machine.run_initial, ← Machine.run_initial]
  exact Machine.Interchangeable.run ⟨rfl, ⟨rfl, rfl, .nil⟩, .nil⟩ h

-- One word among others is exchanged.
theorem forall₂_sameWord {text other : String} (h : SameWord v text other)
    (earlier later : List String) :
    List.Forall₂ (SameWord v) (earlier ++ text :: later) (earlier ++ other :: later) := by
  have hsame : ∀ words : List String, List.Forall₂ (SameWord v) words words := fun words =>
    List.forall₂_same.mpr fun _ _ => .inl rfl
  exact List.rel_append (hsame earlier) (.cons h (hsame later))

end Token

namespace Condition

variable {v : Vocabulary} {query other : String}

-- Queries with interchangeable words are refused for the same fault at the same words, or else
-- they ask for the same.
theorem read_eq_error_or_ofQuery_eq
    (h : List.Forall₂ (Token.SameWord v) (Text.words query) (Text.words other)) :
    (∃ found : GroupingError,
      Token.read query = .error (.grouping found.fault (Token.excerpt (Text.words query) found)) ∧
        Token.read other =
          .error (.grouping found.fault (Token.excerpt (Text.words other) found))) ∨
      (∃ tokens? others?, Token.read query = .ok tokens? ∧ Token.read other = .ok others?) ∧
        ofQuery v query = ofQuery v other := by
  by_cases hblank : Text.words query = []
  · have hother : Text.words other = [] := List.forall₂_nil_left_iff.mp (hblank ▸ h)
    rw [ofQuery, ofQuery, Token.read_eq_none.mpr hblank, Token.read_eq_none.mpr hother]
    exact .inr ⟨⟨_, _, rfl, rfl⟩, rfl⟩
  · have hother : Text.words other ≠ [] := fun hnil =>
      hblank (List.forall₂_nil_right_iff.mp (hnil ▸ h))
    rw [ofQuery, ofQuery, Token.read_of_words_ne_nil hblank, Token.read_of_words_ne_nil hother]
    rcases (Token.corresponds_scanWords h).ok_or_error with
      ⟨ts, us, hts, hus, hall⟩ | ⟨found, hfirst, hsecond⟩
    · rw [hts, hus]
      have htoken := (Token.interchangeable_gather hall).ofToken_eq
      exact .inr ⟨⟨_, _, rfl, rfl⟩, congrArg (Except.map some) htoken⟩
    · rw [hfirst, hsecond]
      exact .inl ⟨found, rfl, rfl⟩

end Condition

end SearchQuery
