import SearchQuery.Proofs.Token.Progress

-- Where a scan is among the words: each token moves it on, no word is looked at and no excerpt is
-- made outside of them, and a group ends at the `)` that balances its `(`.

namespace SearchQuery.Token

section Depth

variable {words : List String} {found : List Token} {text : String}

-- The number of groups that a word opens. A `)` undoes one.
def opened (text : String) : Int :=
  if withoutDashes text = "(" then 1 else if text = ")" then -1 else 0

-- The number of groups that are open after some words.
def depth (words : List String) : Int :=
  (words.map opened).sum

theorem depth_nil : depth [] = 0 :=
  rfl

theorem depth_cons (text : String) (words : List String) :
    depth (text :: words) = opened text + depth words := by
  rw [depth, List.map_cons, List.sum_cons, depth]

theorem depth_append (words others : List String) :
    depth (words ++ others) = depth words + depth others := by
  rw [depth, List.map_append, List.sum_append, depth, depth]

theorem opened_close : opened ")" = -1 := by
  decide

theorem opened_of_open (h : withoutDashes text = "(") : opened text = 1 :=
  if_pos h

theorem opened_of_text (h : IsText text) : opened text = 0 := by
  rw [opened, if_neg h.1, if_neg h.ne_close]

-- The `)` at a position ends the group whose words these are: before it each group that opens
-- has closed, and none has closed that did not open.
structure Balances (words : List String) (i : Nat) : Prop where
  close : words[i]? = some ")"
  level : depth (words.take i) = 0
  inside : ∀ k ≤ i, 0 ≤ depth (words.take k)

-- Behind it one group too many is closed.
theorem Balances.depth_succ {i : Nat} (h : Balances words i) : depth (words.take (i + 1)) = -1 := by
  rw [List.take_add_one, h.close, Option.toList_some, depth_append, h.level, depth_cons,
    opened_close, depth_nil]
  rfl

theorem Balances.unique {i j : Nat} (hi : Balances words i) (hj : Balances words j) : i = j := by
  have hle : ∀ {i j : Nat}, Balances words i → Balances words j → j ≤ i := by
    intro i j hi hj
    by_contra hlt
    have hinside := hj.inside (i + 1) (by omega)
    rw [hi.depth_succ] at hinside
    omega
  exact Nat.le_antisymm (hle hj hi) (hle hi hj)

theorem Reads.depth_eq_zero (h : Reads words found) : depth words = 0 := by
  induction h with
  | nil => rfl
  | text htext rest ih => rw [depth_cons, opened_of_text htext, ih, Int.zero_add]
  | group hopen inside hresolve rest ihinside ih =>
      rw [depth_cons, depth_append, depth_cons, opened_of_open hopen, opened_close, ihinside, ih]
      rfl

theorem Reads.depth_take_nonneg (h : Reads words found) (k : Nat) : 0 ≤ depth (words.take k) := by
  induction h generalizing k with
  | nil => simp [depth_nil]
  | text htext rest ih =>
      cases k with
      | zero => exact Int.le_refl 0
      | succ k =>
          have hk := ih k
          rw [List.take_succ_cons, depth_cons, opened_of_text htext]
          omega
  | @group text inner words found resolved tokens hopen inside hresolve rest ihinside ih =>
      cases k with
      | zero => exact Int.le_refl 0
      | succ k =>
          have hinner := ihinside k
          rw [List.take_succ_cons, depth_cons, opened_of_open hopen, List.take_append, depth_append]
          -- either the words end inside the group, or its `)` is among them
          cases k - inner.length with
          | zero =>
              rw [List.take_zero, depth_nil]
              omega
          | succ j =>
              have hafter := ih j
              rw [List.take_succ_cons, depth_cons, opened_close]
              omega

-- Words that are read are followed by the `)` of the group in which they are.
theorem Reads.balances (h : Reads words found) (rest : List String) :
    Balances (words ++ ")" :: rest) words.length where
  close := by simp
  level := by rw [List.take_left, h.depth_eq_zero]
  inside k hk := by
    rw [List.take_append_of_le_length hk]
    exact h.depth_take_nonneg k

end Depth

namespace Progress

variable {parts : List String} {p q : Progress} {e : GroupingError}

-- A level that is scanned somewhere in a list of words.
structure Within (parts : List String) (p : Progress) : Prop where
  start_le : p.start ≤ p.pos
  pos_le : p.pos ≤ parts.length
  words_eq : p.words = parts.drop p.pos

theorem within_begin {pos : Nat} (g : Bool) (h : pos ≤ parts.length) :
    Within parts (begin g pos (parts.drop pos)) :=
  ⟨Nat.le_refl pos, h, rfl⟩

theorem Within.getElem? {text : String} {rest : List String} (h : Within parts p)
    (hwords : p.words = text :: rest) : parts[p.pos]? = some text := by
  rw [← List.head?_drop, ← h.words_eq, hwords, List.head?_cons]

-- A token moves the scan on, and it stays among the words.
theorem Within.next_of_scanToken {text : String} {rest : List String} {found : Found}
    (h : Within parts p) (hwords : p.words = text :: rest)
    (hfound : scanToken p.pos text rest = .ok found) :
    p.pos < found.next ∧ found.next ≤ parts.length ∧ found.rest = parts.drop found.next := by
  obtain ⟨more, -, rfl, hnext⟩ := reads_of_scanToken hfound
  have hdrop : parts.drop p.pos = (text :: more) ++ found.rest := h.words_eq.symm.trans hwords
  have hlength : parts.length - p.pos = (text :: more).length + found.rest.length := by
    rw [← List.length_drop, hdrop, List.length_append]
  have hpos : found.next = p.pos + (text :: more).length := by
    rw [hnext, List.length_cons, Nat.add_assoc, Nat.add_comm 1]
  have hle := h.pos_le
  refine ⟨?_, by omega, ?_⟩
  · rw [hpos]
    exact Nat.lt_add_of_pos_right (Nat.succ_pos _)
  · rw [hpos, ← List.drop_drop, hdrop, List.drop_left]

theorem Leads.within (h : p.Leads q) (hp : Within parts p) : Within parts q := by
  cases h with
  | token hne h =>
      obtain ⟨hlt, hle, hrest⟩ := hp.next_of_scanToken rfl h
      have hstart := hp.start_le
      exact ⟨Nat.le_trans hstart hlt.le, hle, hrest⟩
  | @group g start pos text rest tokens hopen =>
      have hdrop : text :: rest = parts.drop pos := hp.words_eq
      have hlength := congrArg List.length hdrop
      rw [List.length_cons, List.length_drop] at hlength
      have hrest : rest = parts.drop (pos + 1) := by
        rw [← List.drop_drop, ← hdrop, List.drop_one, List.tail_cons]
      rw [hrest]
      exact within_begin true (by omega)

theorem Reaches.within (h : p.Reaches q) (hp : Within parts p) : Within parts q := by
  induction h with
  | refl => exact hp
  | tail _ hstep ih => exact hstep.within ih

-- The words that an error shows are some of the words, from the first of them to the last. The
-- induction is on the course of the scan.
theorem Within.excerpt_in_range (hp : Within parts p) (h : p.outcome = .error e) :
    e.start ≤ min e.stop parts.length := by
  induction p using wellFounded_leads.induction with
  | h p ih =>
      rcases error_of_outcome h with ⟨hstart, hstop⟩ | ⟨q, hlead, houtcome⟩
      · have hbefore := hp.start_le
        have hpos := hp.pos_le
        omega
      · exact ih q hlead (hlead.within hp) houtcome

-- A group ends behind the `)` that balances its `(`, and behind no other.
theorem balances_of_scanned_group {start pos : Nat} {words : List String} {tokens : List Token}
    {level : Level} (h : scanned true start pos words tokens = .ok level) :
    ∃ i, level.next = pos + i + 1 ∧ ∀ j, Balances words j ↔ j = i := by
  obtain ⟨read, found, hread, rfl, hnext, -⟩ := reads_of_scanned_group h
  have hbalances := hread.balances level.rest
  refine ⟨read.length, hnext, fun j => ⟨fun hj => hj.unique hbalances, ?_⟩⟩
  rintro rfl
  exact hbalances

-- Each token that a scan finds moves it on, and it ends at the last word, or at the `)` that
-- balances the `(` before its first word. No word and no excerpt is out of range on the way, and
-- the way is finite.
theorem advances_in_range (parts : List String) (offset : Nat) (closing : Bool)
    (h : offset ≤ parts.length) :
    let first := begin closing offset (parts.drop offset)
    (∀ p, first.Reaches p →
        (∀ text rest, p.words = text :: rest → parts[p.pos]? = some text ∧
          ∀ found, scanToken p.pos text rest = .ok found →
            p.pos < found.next ∧ found.next ≤ parts.length) ∧
        ∀ e, p.outcome = .error e → e.start ≤ min e.stop parts.length) ∧
      (∀ level, first.outcome = .ok level →
        (closing = true →
          ∃ i, level.next = offset + i + 1 ∧ ∀ j, Balances (parts.drop offset) j ↔ j = i) ∧
        (closing = false → level.next = parts.length)) ∧
      WellFounded fun q p : Progress => p.Leads q := by
  intro first
  have hfirst : Within parts first := within_begin closing h
  refine ⟨fun p hreaches => ?_, fun level hlevel => ⟨?_, ?_⟩, wellFounded_leads⟩
  · have hp := hreaches.within hfirst
    refine ⟨fun text rest hwords => ⟨hp.getElem? hwords, fun found hfound => ?_⟩,
      fun e => hp.excerpt_in_range⟩
    obtain ⟨hlt, hle, -⟩ := hp.next_of_scanToken hwords hfound
    exact ⟨hlt, hle⟩
  · rintro rfl
    exact balances_of_scanned_group hlevel
  · rintro rfl
    have hnext : level.next = offset + (parts.drop offset).length := next_of_scanned_query hlevel
    rw [hnext, List.length_drop]
    omega

-- A group that ends, and further on one that does not.
theorem advances_in_range_nested :
    let parts := ["a", "-(", "b", "(", "-", ")", ")", "(", "c"]
    let group := begin true 2 (parts.drop 2)
    let query := begin false 7 (parts.drop 7)
    2 ≤ parts.length ∧ 7 ≤ parts.length ∧ group.outcome = .ok ⟨[word "b"], 7, ["(", "c"]⟩ ∧
      (∃ i, 7 = 2 + i + 1 ∧ ∀ j, Balances (parts.drop 2) j ↔ j = i) ∧
      query.outcome = .error ⟨.unclosed, 7, 9⟩ ∧ 7 ≤ min 9 parts.length := by
  intro parts group query
  have houtcome : group.outcome = .ok ⟨[word "b"], 7, ["(", "c"]⟩ := by cbv
  have hfault : query.outcome = .error ⟨.unclosed, 7, 9⟩ := by cbv
  obtain ⟨-, hends, -⟩ := advances_in_range parts 2 true (by decide)
  obtain ⟨hway, -, -⟩ := advances_in_range parts 7 false (by decide)
  exact ⟨by decide, by decide, houtcome, (hends _ houtcome).1 rfl, hfault,
    (hway query .refl).2 _ hfault⟩

end Progress

end SearchQuery.Token
