import Mathlib.Computability.Language
import Mathlib.Data.Char
import Mathlib.Order.Interval.Set.Defs
import SearchQuery.Error
import SearchQuery.Proofs.NameMap
import SearchQuery.Proofs.Results
import SearchQuery.Proofs.Text.Bytes
import SearchQuery.Proofs.Vocabulary

-- Which lists of kinds make a vocabulary, what it then holds, and which name is at fault if they
-- make none.

namespace SearchQuery

open scoped Computability

section Names

variable {chars : Set Char} {cs : List Char} {c : Char} {name : String}

-- The texts of one character out of a set.
def oneOf (chars : Set Char) : Language Char :=
  {cs | ∃ c ∈ chars, cs = [c]}

def nameStarts : Set Char :=
  Set.Icc 'A' 'Z' ∪ Set.Icc 'a' 'z' ∪ Set.Icc '0' '9' ∪ {'_'}

def nameChars : Set Char :=
  nameStarts ∪ {'.', '-'}

-- What the name of a kind looks like from its first character to its last.
def namePattern : Language Char :=
  oneOf nameStarts * (oneOf nameChars)∗

theorem mem_kstar_oneOf : cs ∈ (oneOf chars)∗ ↔ ∀ c ∈ cs, c ∈ chars := by
  rw [Language.mem_kstar]
  constructor
  · rintro ⟨parts, rfl, hparts⟩ c hc
    obtain ⟨part, hpart, hc⟩ := List.mem_flatten.mp hc
    obtain ⟨d, hd, rfl⟩ := hparts part hpart
    rwa [List.mem_singleton.mp hc]
  · intro h
    refine ⟨cs.map fun c => [c], by simp [← List.flatMap_def], fun part hpart => ?_⟩
    obtain ⟨c, hc, rfl⟩ := List.mem_map.mp hpart
    exact ⟨c, h c hc, rfl⟩

theorem mem_nameStarts_iff : c ∈ nameStarts ↔ isNameStart c = true := by
  have hupper : c.isUpper = true ↔ 'A' ≤ c ∧ c ≤ 'Z' := decide_eq_true_iff
  have hlower : c.isLower = true ↔ 'a' ≤ c ∧ c ≤ 'z' :=
    Bool.and_eq_true_iff.trans (and_congr decide_eq_true_iff decide_eq_true_iff)
  have hdigit : c.isDigit = true ↔ '0' ≤ c ∧ c ≤ '9' := Char.isDigit_iff_toNat
  have halnum : c.isAlphanum = (c.isUpper || c.isLower || c.isDigit) := rfl
  simp only [nameStarts, Set.mem_union, Set.mem_Icc, Set.mem_singleton_iff, isNameStart, halnum,
    Bool.or_eq_true, hupper, hlower, hdigit, beq_iff_eq]

theorem mem_nameChars_iff : c ∈ nameChars ↔ isNameChar c = true := by
  simp only [nameChars, Set.mem_union, Set.mem_insert_iff, Set.mem_singleton_iff,
    mem_nameStarts_iff, isNameChar, Bool.or_eq_true, beq_iff_eq, or_assoc]

theorem mem_namePattern_iff : name.toList ∈ namePattern ↔ isKindName name = true := by
  rw [namePattern, Language.mem_mul, isKindName]
  constructor
  · rintro ⟨_, ⟨c, hc, rfl⟩, cs, hcs, hname⟩
    rw [← hname]
    have hall := mem_kstar_oneOf.mp hcs
    simp only [mem_nameStarts_iff, mem_nameChars_iff] at hc hall
    simpa [hc] using hall
  · intro h
    cases hname : name.toList with
    | nil =>
        rw [hname] at h
        cases h
    | cons c cs =>
        rw [hname, Bool.and_eq_true, List.all_eq_true] at h
        exact ⟨[c], ⟨c, mem_nameStarts_iff.mpr h.1, rfl⟩, cs,
          mem_kstar_oneOf.mpr fun d hd => mem_nameChars_iff.mpr (h.2 d hd), rfl⟩

end Names

namespace Vocabulary

-- Names that kinds can have together: each is free and well-formed and is there once.
structure Acceptable (names : List String) : Prop where
  not_reserved : ∀ name ∈ names, name ∉ reservedNames
  matching : ∀ name ∈ names, name.toList ∈ namePattern
  nodup : names.Nodup

-- What can be wrong with a name that comes after others.
inductive Faulty (earlier : List String) (name : String) : NameFault → Prop
  | reserved (h : name ∈ reservedNames) : Faulty earlier name .reserved
  | malformed (h : name.toList ∉ namePattern) : Faulty earlier name .malformed
  | duplicate (h : name ∈ earlier) : Faulty earlier name .duplicate

variable {v w : Vocabulary} {name : String} {names : List String} {kind : Kind}
  {kinds before : List (String × Kind)} {fault : NameFault} {e : NameFault × String}

theorem acceptable_cons :
    Acceptable (name :: names) ↔
      (name ∉ reservedNames ∧ name.toList ∈ namePattern ∧ name ∉ names) ∧ Acceptable names := by
  constructor
  · intro h
    obtain ⟨hreserved, hreserved'⟩ := List.forall_mem_cons.mp h.not_reserved
    obtain ⟨hpattern, hpattern'⟩ := List.forall_mem_cons.mp h.matching
    obtain ⟨hfresh, hnodup⟩ := List.nodup_cons.mp h.nodup
    exact ⟨⟨hreserved, hpattern, hfresh⟩, hreserved', hpattern', hnodup⟩
  · rintro ⟨⟨hreserved, hpattern, hfresh⟩, h⟩
    exact ⟨List.forall_mem_cons.mpr ⟨hreserved, h.not_reserved⟩,
      List.forall_mem_cons.mpr ⟨hpattern, h.matching⟩, List.nodup_cons.mpr ⟨hfresh, h.nodup⟩⟩

section Register

theorem register_of_fault (h : v.nameFault? name = some fault) (kind : Kind) :
    v.register name kind = .error (fault, name) := by
  rw [register, h]

theorem register_of_no_fault (h : v.nameFault? name = none) (kind : Kind) :
    v.register name kind = .ok ⟨v.kinds.insert name kind⟩ := by
  rw [register, h]

theorem registerAll_cons (v : Vocabulary) (first : String × Kind) (kinds : List (String × Kind)) :
    v.registerAll (first :: kinds) =
      (v.register first.1 first.2).bind fun w => w.registerAll kinds :=
  rfl

-- Kinds can be registered one after the other if their names are acceptable and none of them
-- was taken before.
theorem exists_registerAll_iff :
    (∃ w, v.registerAll kinds = .ok w) ↔
      Acceptable (kinds.map Prod.fst) ∧ ∀ name ∈ kinds.map Prod.fst, v.get? name = none := by
  induction kinds generalizing v with
  | nil => exact ⟨fun _ => ⟨⟨nofun, nofun, .nil⟩, nofun⟩, fun _ => ⟨v, rfl⟩⟩
  | cons first kinds ih =>
      obtain ⟨name, kind⟩ := first
      rw [registerAll_cons, List.map_cons, acceptable_cons, List.forall_mem_cons,
        mem_namePattern_iff]
      cases hfault : v.nameFault? name with
      | some fault =>
          rw [register_of_fault hfault]
          have hnot := mt nameFault?_eq_none.mpr (hfault ▸ Option.some_ne_none fault)
          constructor
          · rintro ⟨w, hw⟩
            cases hw
          · rintro ⟨⟨⟨hreserved, hname, -⟩, -⟩, hfree, -⟩
            exact absurd ⟨hreserved, hname, hfree⟩ hnot
      | none =>
          obtain ⟨hreserved, hname, hfree⟩ := nameFault?_eq_none.mp hfault
          have hget : ∀ other, get? ⟨v.kinds.insert name kind⟩ other = none ↔
              other ≠ name ∧ v.get? other = none := fun _ => NameMap.get?_insert_eq_none
          rw [register_of_no_fault hfault]
          show (∃ w, registerAll _ kinds = .ok w) ↔ _
          simp only [ih, hget]
          constructor
          · rintro ⟨hacceptable, hothers⟩
            exact ⟨⟨⟨hreserved, hname, fun hmem => (hothers name hmem).1 rfl⟩, hacceptable⟩, hfree,
              fun other hmem => (hothers other hmem).2⟩
          · rintro ⟨⟨⟨-, -, hfresh⟩, hacceptable⟩, -, hothers⟩
            refine ⟨hacceptable, fun other hmem => ⟨?_, hothers other hmem⟩⟩
            rintro rfl
            exact hfresh hmem

-- The first registration that fails comes after others that made a vocabulary.
theorem exists_of_registerAll_error (h : v.registerAll kinds = .error e) :
    ∃ before kind after w, kinds = before ++ (e.2, kind) :: after ∧
      v.registerAll before = .ok w ∧ w.nameFault? e.2 = some e.1 := by
  induction kinds generalizing v with
  | nil => cases h
  | cons first kinds ih =>
      obtain ⟨name, kind⟩ := first
      cases hfault : v.nameFault? name with
      | some fault =>
          rw [registerAll_cons, register_of_fault hfault] at h
          cases h
          exact ⟨[], kind, kinds, v, rfl, rfl, hfault⟩
      | none =>
          rw [registerAll_cons, register_of_no_fault hfault] at h
          obtain ⟨before, kind', after, w, rfl, hbefore, hlast⟩ := ih h
          refine ⟨(name, kind) :: before, kind', after, w, rfl, ?_, hlast⟩
          rw [registerAll_cons, register_of_no_fault hfault]
          exact hbefore

end Register

section Build

theorem exists_build_iff : (∃ v, build kinds = .ok v) ↔ Acceptable (kinds.map Prod.fst) := by
  rw [build, exists_registerAll_iff]
  exact and_iff_left fun name _ => rfl

theorem faulty_of_nameFault? (hbefore : build before = .ok v) (h : v.nameFault? name = some fault) :
    Faulty (before.map Prod.fst) name fault := by
  unfold nameFault? at h
  split_ifs at h with hreserved hname htaken
  · cases h
    exact .reserved (by simpa using hreserved)
  · cases h
    exact .malformed fun hpattern => by simp [mem_namePattern_iff.mp hpattern] at hname
  · cases h
    obtain ⟨kind, hkind⟩ := Option.isSome_iff_exists.mp htaken
    exact .duplicate (List.mem_map_of_mem ((get?_build hbefore).mp hkind))

-- The error is the fault of the earliest name that has one.
theorem faulty_of_build (h : build kinds = .error e) :
    ∃ earlier later, kinds.map Prod.fst = earlier ++ e.2 :: later ∧ Acceptable earlier ∧
      Faulty earlier e.2 e.1 := by
  obtain ⟨before, kind, after, v, rfl, hbefore, hfault⟩ := exists_of_registerAll_error h
  refine ⟨before.map Prod.fst, after.map Prod.fst, by simp, ?_, faulty_of_nameFault? hbefore hfault⟩
  exact exists_build_iff.mp ⟨v, hbefore⟩

theorem perm_names_of_build (h : build kinds = .ok v) : v.names.Perm (kinds.map Prod.fst) := by
  apply (List.perm_ext_iff_of_nodup v.kinds.nodup_names (exists_build_iff.mp ⟨v, h⟩).nodup).mpr
  intro name
  rw [NameMap.mem_names_iff]
  show (∃ kind, v.get? name = some kind) ↔ _
  simp [get?_build h]

end Build

section Error

variable {problem : QueryError}

theorem ofKinds_eq_ok : ofKinds kinds = .ok v ↔ build kinds = .ok v :=
  mapError_eq_ok

theorem faulty_of_ofKinds (h : ofKinds kinds = .error problem) :
    ∃ earlier name later fault, kinds.map Prod.fst = earlier ++ name :: later ∧
      Acceptable earlier ∧ Faulty earlier name fault ∧ problem = .kindName fault name := by
  obtain ⟨⟨fault, name⟩, hbuild, rfl⟩ := mapError_eq_error.mp h
  obtain ⟨earlier, later, hnames, hearlier, hfault⟩ := faulty_of_build hbuild
  exact ⟨earlier, name, later, fault, hnames, hearlier, hfault, rfl⟩

theorem pairwise_bytes_names (v : Vocabulary) :
    v.names.Pairwise fun a b => Text.bytes a < Text.bytes b :=
  v.kinds.pairwise_names.imp Text.bytes_lt_of_lt

end Error

end Vocabulary

end SearchQuery
