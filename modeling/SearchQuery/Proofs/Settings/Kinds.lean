import SearchQuery.Settings.Basic
import SearchQuery.Proofs.Vocabulary.Build

-- The vocabulary of settings. They have their kinds in the order of the names, so that no name
-- is there twice and the earliest one at fault is the least.

namespace SearchQuery

namespace Settings

open Vocabulary

variable {s : Settings} {v : Vocabulary} {name : String} {fault : NameFault} {problem : QueryError}

-- A name that no kind can have, whatever other kinds there are.
def Refused (name : String) : Prop :=
  name ∈ reservedNames ∨ name.toList ∉ namePattern

theorem map_fst_registrations (s : Settings) : s.registrations.map Prod.fst = s.kinds.names := by
  simp [registrations, NameMap.names]

theorem acceptable_names_iff :
    Acceptable s.kinds.names ↔ ∀ name ∈ s.kinds.names, ¬Refused name := by
  constructor
  · rintro h name hname (hreserved | hpattern)
    · exact h.not_reserved name hname hreserved
    · exact hpattern (h.matching name hname)
  · intro h
    refine ⟨fun name hname hreserved => h name hname (.inl hreserved), fun name hname => ?_,
      s.kinds.nodup_names⟩
    by_contra hpattern
    exact h name hname (.inr hpattern)

theorem exists_error_iff :
    (∃ problem, s.vocabulary = .error problem) ↔ ∃ name ∈ s.kinds.names, Refused name := by
  have hok : (∃ v, s.vocabulary = .ok v) ↔ ∀ name ∈ s.kinds.names, ¬Refused name := by
    rw [← acceptable_names_iff, ← map_fst_registrations, ← exists_build_iff]
    simp only [vocabulary, ofKinds_eq_ok]
  have hcases : (∃ problem, s.vocabulary = .error problem) ↔ ¬∃ v, s.vocabulary = .ok v := by
    cases s.vocabulary <;> simp
  rw [hcases, hok]
  push Not
  rfl

theorem least_of_vocabulary (h : s.vocabulary = .error problem) :
    ∃ fault, ∃ name ∈ s.kinds.names, problem = .kindName fault name ∧ Faulty [] name fault ∧
      ∀ other ∈ s.kinds.names, Refused other → Text.bytes name ≤ Text.bytes other := by
  obtain ⟨earlier, name, later, fault, hnames, hearlier, hfault, rfl⟩ := faulty_of_ofKinds h
  rw [map_fst_registrations] at hnames
  have hsorted := s.kinds.pairwise_names
  rw [hnames, List.pairwise_append, List.pairwise_cons] at hsorted
  obtain ⟨-, ⟨hlater, -⟩, hbefore⟩ := hsorted
  refine ⟨fault, name, by simp [hnames], rfl, ?_, fun other hother hrefused => ?_⟩
  · cases hfault with
    | reserved hreserved => exact .reserved hreserved
    | malformed hpattern => exact .malformed hpattern
    | duplicate htaken => exact absurd (hbefore name htaken name (by simp)) (String.lt_irrefl name)
  · rw [hnames, List.mem_append, List.mem_cons] at hother
    rcases hother with hother | rfl | hother
    · rcases hrefused with hreserved | hpattern
      · exact absurd hreserved (hearlier.not_reserved other hother)
      · exact absurd (hearlier.matching other hother) hpattern
    · exact List.le_refl _
    · exact Text.bytes_le_of_le (hlater other hother).le

theorem vocabulary_holds (h : s.vocabulary = .ok v) :
    v.names = s.kinds.names ∧ ∀ name, v.get? name = (s.kinds.get? name).map Kind.ofBuiltin := by
  have hbuild := ofKinds_eq_ok.mp h
  constructor
  · have hperm := perm_names_of_build hbuild
    rw [map_fst_registrations] at hperm
    apply hperm.eq_of_pairwise _ v.kinds.pairwise_names s.kinds.pairwise_names
    intro name other _ _ hlt hgt
    exact absurd hgt (String.lt_asymm hlt)
  · intro name
    apply Option.ext
    intro kind
    rw [get?_build hbuild, Option.map_eq_some_iff]
    simp [NameMap.get?_eq_some_iff, registrations]

end Settings

-- A list of kinds makes a vocabulary if its names are acceptable. The vocabulary then holds these
-- kinds under these names, in the order of their bytes, and otherwise the error is the fault of
-- the earliest name that has one. In settings no name is there twice, and the least one at fault
-- is the error.
theorem Vocabulary.ofKinds_and_vocabulary_of_names :
    (∀ kinds : List (String × Kind),
      ((∃ v, ofKinds kinds = .ok v) ↔ Acceptable (kinds.map Prod.fst)) ∧
      (∀ v, ofKinds kinds = .ok v →
        (∀ name kind, v.get? name = some kind ↔ (name, kind) ∈ kinds) ∧
        v.names.Perm (kinds.map Prod.fst) ∧
        v.names.Pairwise fun a b => Text.bytes a < Text.bytes b) ∧
      ∀ problem, ofKinds kinds = .error problem →
        ∃ earlier name later fault, kinds.map Prod.fst = earlier ++ name :: later ∧
          Acceptable earlier ∧ Faulty earlier name fault ∧ problem = .kindName fault name) ∧
    ∀ s : Settings,
      (∀ name, s.vocabulary ≠ .error (.kindName .duplicate name)) ∧
      ((∃ problem, s.vocabulary = .error problem) ↔
        ∃ name ∈ s.kinds.names, Settings.Refused name) ∧
      (∀ problem, s.vocabulary = .error problem →
        ∃ fault, ∃ name ∈ s.kinds.names, problem = .kindName fault name ∧ Faulty [] name fault ∧
          ∀ other ∈ s.kinds.names, Settings.Refused other →
            Text.bytes name ≤ Text.bytes other) ∧
      ∀ v, s.vocabulary = .ok v →
        v.names = s.kinds.names ∧ ∀ name, v.get? name = (s.kinds.get? name).map Kind.ofBuiltin := by
  refine ⟨fun kinds => ⟨?_, fun v h => ?_, fun problem => faulty_of_ofKinds⟩, fun s => ?_⟩
  · simp only [ofKinds_eq_ok, exists_build_iff]
  · have hbuild := ofKinds_eq_ok.mp h
    exact ⟨fun name kind => get?_build hbuild, perm_names_of_build hbuild, pairwise_bytes_names v⟩
  · refine ⟨fun name h => ?_, Settings.exists_error_iff, fun problem => Settings.least_of_vocabulary,
      fun v => Settings.vocabulary_holds⟩
    obtain ⟨fault, other, -, heq, hfault, -⟩ := Settings.least_of_vocabulary h
    cases heq
    cases hfault with
    | duplicate htaken => cases htaken

-- A name that is there again is refused before one that is reserved, and of two names of settings
-- the lower one.
theorem Vocabulary.ofKinds_and_vocabulary_of_names_refused :
    let kinds : List (String × Kind) := [("b", .flag), ("A.b-c_9", .ofBuiltin .int)]
    let more : List (String × Kind) := kinds ++ [("b", .ofBuiltin .float), ("or", .flag)]
    let s : Settings := { Settings.default with
      kinds := ((NameMap.empty.insert "or" Builtin.flag).insert "é" .int).insert "-a" .string }
    let t : Settings := { Settings.default with
      kinds := (NameMap.empty.insert "b" Builtin.flag).insert "a" .int }
    (∃ v, ofKinds kinds = .ok v ∧ v.get? "b" = some .flag ∧ v.names.Perm ["b", "A.b-c_9"]) ∧
      ofKinds more = .error (.kindName .duplicate "b") ∧
      (∃ earlier later, more.map Prod.fst = earlier ++ "b" :: later ∧ Acceptable earlier ∧
        Faulty earlier "b" .duplicate) ∧
      s.vocabulary = .error (.kindName .malformed "-a") ∧
      Text.bytes "-a" ≤ Text.bytes "or" ∧
      ∃ v, t.vocabulary = .ok v ∧ v.names = t.kinds.names ∧
        v.get? "b" = (t.kinds.get? "b").map Kind.ofBuiltin := by
  intro kinds more s t
  obtain ⟨hkinds, hsettings⟩ := ofKinds_and_vocabulary_of_names
  have hacceptable : Acceptable (kinds.map Prod.fst) :=
    ⟨by decide, by simp only [mem_namePattern_iff]; decide, by decide⟩
  obtain ⟨v, hv⟩ := (hkinds kinds).1.mpr hacceptable
  obtain ⟨hget, hnames, -⟩ := (hkinds kinds).2.1 v hv
  have hmore : ofKinds more = .error (.kindName .duplicate "b") := rfl
  obtain ⟨earlier, name, later, fault, hsplit, hearlier, hfault, heq⟩ := (hkinds more).2.2 _ hmore
  cases heq
  have hrefused : s.vocabulary = .error (.kindName .malformed "-a") := rfl
  obtain ⟨fault, name, -, heq, -, hleast⟩ := (hsettings s).2.2.1 _ hrefused
  cases heq
  obtain ⟨w, hw⟩ : ∃ w, t.vocabulary = .ok w := ⟨_, rfl⟩
  obtain ⟨hkept, hcodecs⟩ := (hsettings t).2.2.2 w hw
  exact ⟨⟨v, hv, (hget "b" .flag).mpr (by simp [kinds]), hnames⟩, hmore,
    ⟨earlier, later, hsplit, hearlier, hfault⟩, hrefused,
    hleast "or" (by decide) (.inl (by decide)), w, hw, hkept, hcodecs "b"⟩

end SearchQuery
