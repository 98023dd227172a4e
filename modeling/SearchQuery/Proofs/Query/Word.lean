import Mathlib.Data.List.TakeWhile
import Mathlib.Logic.Function.Iterate
import SearchQuery.Condition.Query
import SearchQuery.Proofs.Tree

-- What a single word of a query asks for: a leaf, under a negation for each `not:` in front.

namespace SearchQuery

namespace Text

variable {mark : Char} {cs : List Char}

theorem not_mem_fst_cutAt (mark : Char) (cs : List Char) : mark ∉ (cutAt mark cs).1 := by
  intro h
  have hne := List.all_eq_true.mp (List.all_takeWhile (l := cs)) mark h
  simp at hne

-- Put together again, with the mark between them, the two sides of a cut are what was cut.
theorem cutAt_append (mark : Char) (cs : List Char) :
    ((cutAt mark cs).2 = none ∧ cs = (cutAt mark cs).1) ∨
      ∃ rest, (cutAt mark cs).2 = some rest ∧ cs = (cutAt mark cs).1 ++ mark :: rest := by
  have hwhole := List.takeWhile_append_dropWhile (p := fun c => c != mark) (l := cs)
  cases hdrop : cs.dropWhile fun c => c != mark with
  | nil =>
      rw [hdrop, List.append_nil] at hwhole
      exact .inl ⟨by simp [cutAt, hdrop], hwhole.symm⟩
  | cons c rest =>
      have hmark : c = mark := by
        have hhead := List.head?_dropWhile_not (fun c => c != mark) cs
        rw [hdrop] at hhead
        simpa using hhead
      rw [hdrop, hmark] at hwhole
      exact .inr ⟨rest, by simp [cutAt, hdrop], hwhole.symm⟩

theorem bne_mark_of_not_mem (h : mark ∉ cs) : ∀ c ∈ cs, (c != mark) = true := by
  intro c hc
  rw [bne_iff_ne]
  rintro rfl
  exact h hc

theorem cutAt_of_not_mem (h : mark ∉ cs) : cutAt mark cs = (cs, none) := by
  have htake : (cs.takeWhile fun c => c != mark) = cs :=
    List.takeWhile_eq_self_iff.mpr (bne_mark_of_not_mem h)
  have hdrop : (cs.dropWhile fun c => c != mark) = [] :=
    List.dropWhile_eq_nil_iff.mpr (bne_mark_of_not_mem h)
  rw [cutAt, htake, hdrop]

theorem cutAt_append_mark (h : mark ∉ cs) (rest : List Char) :
    cutAt mark (cs ++ mark :: rest) = (cs, some rest) := by
  rw [cutAt, List.takeWhile_append_of_pos (bne_mark_of_not_mem h),
    List.dropWhile_append_of_pos (bne_mark_of_not_mem h)]
  simp

end Text

-- A kind that a word can name: a word is cut at its first colon, and neither blank names nor
-- those of the conditions that combine others are looked up.
structure Vocabulary.Names (v : Vocabulary) (name : String) (kind : Kind) : Prop where
  get : v.get? name = some kind
  not_blank : Text.isBlank name = false
  no_colon : ':' ∉ name.toList
  not_reserved : name ∉ reservedNames

-- The errors that a single word can be the cause of.
def QueryError.OfWord : QueryError → Prop
  | .missingKind _ => True
  | .reservedKind _ _ => True
  | .unknownKind _ _ => True
  | .missingValue _ _ => True
  | .invalidValue _ _ => True
  | _ => False

namespace Condition

-- The words for a leaf, which is told by its kind and its value. A flag has no value, and
-- what stands after its colon does not matter; any other kind reads its value from there.
inductive Spells (v : Vocabulary) : String → String × Value → Prop
  | flag {name rest : String} {kind : Kind} (hname : v.Names name kind)
      (hflag : kind.parse? = none) (hrest : rest = "" ∨ ∃ ignored, rest = ":" ++ ignored) :
      Spells v (name ++ rest) (name, .unit)
  | value {name text : String} {kind : Kind} {parse : ValueReader} {value : Value}
      (hname : v.Names name kind) (hparse : kind.parse? = some parse)
      (htext : Text.isBlank text = false) (hvalue : parse text = .ok value) :
      Spells v (name ++ ":" ++ text) (name, value)
  | not {word : String} {l : String × Value} (h : Spells v word l) : Spells v ("not:" ++ word) l

variable {v : Vocabulary} {cs : List Char} {word : String} {kind : Kind}
  {parse : ValueReader} {c : Condition}

-- The part of a word before its first colon.
def nameOf (cs : List Char) : String :=
  String.ofList (Text.cutAt ':' cs).1

theorem ofList_fst_cutAt (cs : List Char) : String.ofList (Text.cutAt ':' cs).1 = nameOf cs :=
  rfl

theorem isBlank_nameOf (cs : List Char) :
    Text.isBlank (nameOf cs) = (Text.cutAt ':' cs).1.all Text.isBlankChar := by
  rw [Text.isBlank, nameOf, String.toList_ofList]

theorem colon_not_mem_nameOf (cs : List Char) : ':' ∉ (nameOf cs).toList := by
  simpa [nameOf] using Text.not_mem_fst_cutAt ':' cs

theorem ofList_eq_nameOf (cs : List Char) :
    ((Text.cutAt ':' cs).2 = none ∧ String.ofList cs = nameOf cs) ∨
      ∃ rest, (Text.cutAt ':' cs).2 = some rest ∧
        String.ofList cs = nameOf cs ++ ":" ++ String.ofList rest := by
  rcases Text.cutAt_append ':' cs with ⟨hnone, hcs⟩ | ⟨rest, hrest, hcs⟩
  · exact .inl ⟨hnone, congrArg String.ofList hcs⟩
  · refine .inr ⟨rest, hrest, (congrArg String.ofList hcs).trans ?_⟩
    rw [← String.toList_inj]
    simp [nameOf]

section KindWord

-- What is looked up is the name before the colon, unless it is blank or reserved.
theorem ofKindWord_of_not_names (h : ∀ kind, ¬v.Names (nameOf cs) kind) :
    ∃ e, ofKindWord v cs = .error e ∧ e.OfWord := by
  simp only [ofKindWord]
  rw [ofList_fst_cutAt]
  by_cases hblank : (Text.cutAt ':' cs).1.all Text.isBlankChar = true
  · exact ⟨_, if_pos hblank, trivial⟩
  rw [if_neg hblank]
  by_cases hnot : nameOf cs = "not"
  · exact ⟨_, if_pos hnot, trivial⟩
  rw [if_neg hnot]
  by_cases hreserved : (decide (nameOf cs = "and") || decide (nameOf cs = "or")) = true
  · exact ⟨_, if_pos hreserved, trivial⟩
  rw [if_neg hreserved]
  cases hget : v.get? (nameOf cs) with
  | none => exact ⟨_, rfl, trivial⟩
  | some kind =>
      refine absurd ⟨hget, ?_, colon_not_mem_nameOf cs, ?_⟩ (h kind)
      · rw [isBlank_nameOf, eq_false_of_ne_true hblank]
      · simpa [reservedNames, hnot] using hreserved

theorem spells_flag (h : v.Names (nameOf cs) kind) (hflag : kind.parse? = none) :
    Spells v (String.ofList cs) (nameOf cs, .unit) := by
  rcases ofList_eq_nameOf cs with ⟨-, hword⟩ | ⟨rest, -, hword⟩
  · have hspells : Spells v (nameOf cs ++ "") (nameOf cs, .unit) := .flag h hflag (.inl rfl)
    rw [String.append_empty] at hspells
    rwa [hword]
  · rw [hword, String.append_assoc]
    exact .flag h hflag (.inr ⟨_, rfl⟩)

theorem looked_up (h : v.Names (nameOf cs) kind) :
    (Text.cutAt ':' cs).1.all Text.isBlankChar = false ∧ nameOf cs ≠ "not" ∧
      nameOf cs ≠ "and" ∧ nameOf cs ≠ "or" := by
  have hreserved := h.not_reserved
  simp only [reservedNames, List.mem_cons, List.not_mem_nil, or_false, not_or] at hreserved
  obtain ⟨hand, hor, hnot⟩ := hreserved
  exact ⟨(isBlank_nameOf cs).symm.trans h.not_blank, hnot, hand, hor⟩

theorem ofKindWord_of_flag (h : v.Names (nameOf cs) kind) (hflag : kind.parse? = none) :
    ofKindWord v cs = .ok (flag (nameOf cs)) := by
  obtain ⟨hblank, hnot, hand, hor⟩ := looked_up h
  simp only [ofKindWord]
  rw [ofList_fst_cutAt]
  simp [hblank, hnot, hand, hor, h.get, hflag]

-- What a word gives to read, if it gives anything: the part after its first colon, unless blank.
def valueOf? (cs : List Char) : Option (List Char) :=
  (Text.cutAt ':' cs).2.filter fun value => !value.all Text.isBlankChar

theorem ofKindWord_of_no_value (h : v.Names (nameOf cs) kind) (hparse : kind.parse? = some parse)
    (hvalue : valueOf? cs = none) :
    ofKindWord v cs = .error (.missingValue (String.ofList cs) (nameOf cs)) := by
  obtain ⟨hblank, hnot, hand, hor⟩ := looked_up h
  rw [valueOf?] at hvalue
  simp only [ofKindWord]
  rw [ofList_fst_cutAt]
  simp [hblank, hnot, hand, hor, h.get, hparse, hvalue]

theorem ofKindWord_of_value {value : List Char} (h : v.Names (nameOf cs) kind)
    (hparse : kind.parse? = some parse) (hvalue : valueOf? cs = some value) :
    ofKindWord v cs =
      match parse (String.ofList value) with
      | .ok parsed => .ok (leaf (nameOf cs) parsed)
      | .error cause => .error (.invalidValue (String.ofList cs) cause) := by
  obtain ⟨hblank, hnot, hand, hor⟩ := looked_up h
  rw [valueOf?] at hvalue
  simp only [ofKindWord]
  rw [ofList_fst_cutAt]
  cases hread : parse (String.ofList value) with
  | error cause => simp [hblank, hnot, hand, hor, h.get, hparse, hvalue, hread]
  | ok parsed => simp [hblank, hnot, hand, hor, h.get, hparse, hvalue, hread]

theorem ofList_eq_of_valueOf? {value : List Char} (h : valueOf? cs = some value) :
    String.ofList cs = nameOf cs ++ ":" ++ String.ofList value ∧
      Text.isBlank (String.ofList value) = false := by
  obtain ⟨hcut, hfull⟩ := Option.filter_eq_some_iff.mp h
  rcases ofList_eq_nameOf cs with ⟨hnone, -⟩ | ⟨rest, hrest, hword⟩
  · rw [hnone] at hcut
    cases hcut
  · rw [hrest] at hcut
    cases hcut
    rw [Text.isBlank, String.toList_ofList]
    exact ⟨hword, (Bool.not_eq_true' _).mp hfull⟩

-- What a word without `not:` comes to: the cause of an error, or a leaf that it spells.
theorem ofKindWord_cases (v : Vocabulary) (cs : List Char) :
    (∃ e, ofKindWord v cs = .error e ∧ e.OfWord) ∨
      ∃ l : String × Value, ofKindWord v cs = .ok (leaf l.1 l.2) ∧
        Spells v (String.ofList cs) l := by
  by_cases hnames : ∃ kind, v.Names (nameOf cs) kind
  · obtain ⟨kind, hname⟩ := hnames
    cases hparse : kind.parse? with
    | none =>
        have hok := ofKindWord_of_flag hname hparse
        exact .inr ⟨(nameOf cs, .unit), hok, spells_flag hname hparse⟩
    | some parse =>
        cases hvalue : valueOf? cs with
        | none => exact .inl ⟨_, ofKindWord_of_no_value hname hparse hvalue, trivial⟩
        | some value =>
            have hread := ofKindWord_of_value hname hparse hvalue
            obtain ⟨hword, htext⟩ := ofList_eq_of_valueOf? hvalue
            cases hparsed : parse (String.ofList value) with
            | error cause =>
                rw [hparsed] at hread
                exact .inl ⟨_, hread, trivial⟩
            | ok parsed =>
                rw [hparsed] at hread
                refine .inr ⟨(nameOf cs, parsed), hread, ?_⟩
                rw [hword]
                exact .value hname hparse htext hparsed
  · exact .inl (ofKindWord_of_not_names fun kind hname => hnames ⟨kind, hname⟩)

end KindWord

section Word

theorem ofList_not (cs : List Char) :
    String.ofList ('n' :: 'o' :: 't' :: ':' :: cs) = "not:" ++ String.ofList cs := by
  rw [← String.toList_inj]
  simp

-- By recursion on the word, which is shorter without a `not:`.
theorem ofWordChars_cases (v : Vocabulary) (cs : List Char) :
    (∃ e, ofWordChars v cs = .error e ∧ e.OfWord) ∨
      ∃ (n : Nat) (l : String × Value), ofWordChars v cs = .ok (not^[n] (leaf l.1 l.2)) ∧
        Spells v (String.ofList cs) l := by
  fun_induction ofWordChars v cs with
  | case1 operand hblank => exact .inl ⟨_, rfl, trivial⟩
  | case2 operand hblank ih =>
      rcases ih with ⟨e, he, hword⟩ | ⟨n, l, hok, hspells⟩
      · rw [he]
        exact .inl ⟨e, rfl, hword⟩
      · rw [hok]
        refine .inr ⟨n + 1, l, ?_, ?_⟩
        · rw [Function.iterate_succ_apply']
          rfl
        · rw [ofList_not]
          exact hspells.not
  | case3 cs hnot =>
      rcases ofKindWord_cases v cs with ⟨e, he, hword⟩ | ⟨l, hok, hspells⟩
      · exact .inl ⟨e, he, hword⟩
      · exact .inr ⟨0, l, hok, hspells⟩

theorem ofWord_of_error {e : QueryError} (h : ofWord v word = .error e) : e.OfWord := by
  rcases ofWordChars_cases v word.toList with ⟨e', he, hword⟩ | ⟨n, l, hok, -⟩
  · rw [ofWord, he] at h
    cases h
    exact hword
  · rw [ofWord, hok] at h
    cases h

theorem ofWord_of_ok (h : ofWord v word = .ok c) :
    ∃ (n : Nat) (l : String × Value), c = not^[n] (leaf l.1 l.2) ∧ Spells v word l := by
  rcases ofWordChars_cases v word.toList with ⟨e, he, -⟩ | ⟨n, l, hok, hspells⟩
  · rw [ofWord, he] at h
    cases h
  · rw [ofWord, hok] at h
    cases h
    rw [String.ofList_toList] at hspells
    exact ⟨n, l, rfl, hspells⟩

end Word

end Condition

end SearchQuery
