import SearchQuery.Settings.Json
import SearchQuery.Proofs.NameMap

-- The documents that settings can be written as. Any of their fields in any order, or the
-- first of them in an array, are read as these fields over the defaults. A member that is no
-- field, or a field that is there already, is refused.

namespace SearchQuery

namespace Settings

-- Settings with some fields as `c` has them and the others as `s` has them.
def overlay (c s : Settings) (fields : List Field) : Settings where
  kinds := if .kinds ∈ fields then c.kinds else s.kinds
  maxScore := if .maxScore ∈ fields then c.maxScore else s.maxScore
  simplify := if .simplify ∈ fields then c.simplify else s.simplify
  cache := if .cache ∈ fields then c.cache else s.cache
  cacheCapacity := if .cacheCapacity ∈ fields then c.cacheCapacity else s.cacheCapacity

-- Some fields of settings by their names.
def members (c : Settings) (fields : List Field) : List (String × Document) :=
  fields.map fun field => (field.name, c.fieldDocument field)

variable {c s : Settings} {seen fields : List Field} {field : Field} {name : String} {d : Document}

section Overlay

theorem overlay_nil (c s : Settings) : c.overlay s [] = s := by
  simp [overlay]

theorem overlay_cons (c s : Settings) (field : Field) (fields : List Field) :
    c.overlay s (field :: fields) = c.overlay (c.overlay s [field]) fields := by
  cases field <;> simp [overlay]

theorem overlay_all (c s : Settings) : c.overlay s Field.all = c := by
  simp [overlay, Field.all]

theorem toDocument_eq (c : Settings) : c.toDocument = .record (c.members Field.all) :=
  rfl

end Overlay

section Fields

theorem readCodec_name (builtin : Builtin) : readCodec (.string builtin.name) = .ok builtin := by
  rw [readCodec, codecOf, Builtin.ofName?_name]

-- Entries that come in the order of their names are put in one after the other.
theorem addKinds_entries {kinds whole : NameMap Builtin} {entries : List (String × Builtin)}
    (h : whole.entries = kinds.entries ++ entries) :
    addKinds kinds (entries.map fun e => (e.1, .string e.2.name)) = .ok whole := by
  induction entries generalizing kinds with
  | nil =>
      rw [List.append_nil] at h
      rw [NameMap.ext h]
      rfl
  | cons first entries ih =>
      obtain ⟨name, builtin⟩ := first
      have hsorted := whole.sorted
      rw [h, List.pairwise_append] at hsorted
      have hlast : ∀ e ∈ kinds.entries, e.1 < name :=
        fun e he => hsorted.2.2 e he (name, builtin) (by simp)
      have hinsert : (kinds.insert name builtin).entries = kinds.entries ++ [(name, builtin)] :=
        NameMap.insertEntry_of_forall_lt hlast
      have hrest : addKinds (kinds.insert name builtin)
          (entries.map fun e => (e.1, .string e.2.name)) = .ok whole :=
        ih (by rw [h, hinsert, List.append_assoc]; rfl)
      rw [List.map_cons, addKinds, readCodec_name]
      exact hrest

theorem readKinds_fieldDocument (c : Settings) : readKinds (c.fieldDocument .kinds) = .ok c.kinds := by
  have h : addKinds .empty (c.kinds.entries.map fun e => (e.1, .string e.2.name)) = .ok c.kinds :=
    addKinds_entries rfl
  simp only [fieldDocument, Document.record, readKinds]
  rw [h]
  rfl

theorem readBelow_natCast {limit n : Nat} (expected : Expected) (h : n < limit) :
    readBelow limit expected (.integer n) = .ok n := by
  rw [readBelow, if_pos (by simp; omega)]
  rfl

theorem readMaxScore_fieldDocument (c : Settings) :
    readMaxScore (c.fieldDocument .maxScore) = .ok c.maxScore := by
  rw [fieldDocument]
  cases c.maxScore with
  | none => rfl
  | some limit =>
      rw [readMaxScore, readBelow_natCast _ (UInt32.toNat_lt limit)]
      · exact congrArg (Except.ok ∘ some) (UInt32.ofNat_toNat)
      · nofun

theorem readCapacity_fieldDocument (c : Settings) :
    readCapacity (c.fieldDocument .cacheCapacity) = .ok c.cacheCapacity := by
  rw [fieldDocument, readCapacity, readBelow_natCast _ (UInt64.toNat_lt c.cacheCapacity)]
  exact congrArg Except.ok UInt64.ofNat_toNat

-- What a field is written as is read as the same.
theorem setField_fieldDocument (c s : Settings) (field : Field) :
    setField s field (c.fieldDocument field) = .ok (c.overlay s [field]) := by
  cases field with
  | kinds =>
      rw [setField, readKinds_fieldDocument]
      rfl
  | maxScore =>
      rw [setField, readMaxScore_fieldDocument]
      rfl
  | simplify => rfl
  | cache => rfl
  | cacheCapacity =>
      rw [setField, readCapacity_fieldDocument]
      rfl

end Fields

section Members

theorem ofName?_eq_none_iff : Field.ofName? name = none ↔ name ∉ SettingsProblem.fieldNames := by
  rw [Field.ofName?, List.find?_eq_none, ← Field.names_all, List.mem_map]
  simp

theorem setMembers_unknown {more : List (String × Document)}
    (h : name ∉ SettingsProblem.fieldNames) :
    setMembers seen s ((name, d) :: more) = .error (.unknownField name) := by
  rw [setMembers, ofName?_eq_none_iff.mpr h]

-- Fields that are there once and were not there before are set, and what comes after them
-- is read from there.
theorem setMembers_append (hnodup : fields.Nodup) (hnew : ∀ f ∈ fields, f ∉ seen)
    (more : List (String × Document)) :
    setMembers seen s (c.members fields ++ more) =
      setMembers (fields.reverse ++ seen) (c.overlay s fields) more := by
  induction fields generalizing seen s with
  | nil => rw [overlay_nil]; rfl
  | cons field fields ih =>
      obtain ⟨hfresh, hnodup⟩ := List.nodup_cons.mp hnodup
      have hseen : seen.contains field = false := by simpa using hnew field (by simp)
      have hrest : ∀ f ∈ fields, f ∉ field :: seen := by
        intro f hf
        rw [List.mem_cons, not_or]
        exact ⟨fun heq => hfresh (heq ▸ hf), hnew f (List.mem_cons_of_mem _ hf)⟩
      have hstep : setMembers seen s ((field.name, c.fieldDocument field) ::
            (c.members fields ++ more)) =
          setMembers (field :: seen) (c.overlay s [field]) (c.members fields ++ more) := by
        rw [setMembers, Field.ofName?_name]
        simp only [hseen, Bool.false_eq_true, if_false, setField_fieldDocument]
        rfl
      rw [members, List.map_cons, List.cons_append, overlay_cons]
      refine hstep.trans ?_
      rw [ih hnodup hrest, List.reverse_cons, List.append_assoc]
      rfl

theorem name_of_ofName? (h : Field.ofName? name = some field) : field.name = name := by
  simpa using List.find?_some h

-- Members that are read name each field once, and none that was there before.
theorem names_of_setMembers {ms : List (String × Document)} {t : Settings}
    (h : setMembers seen s ms = .ok t) :
    (ms.map Prod.fst).Nodup ∧ ∀ f ∈ seen, f.name ∉ ms.map Prod.fst := by
  induction ms generalizing seen s with
  | nil => simp
  | cons m ms ih =>
      obtain ⟨name, d⟩ := m
      rw [setMembers] at h
      cases hname : Field.ofName? name with
      | none =>
          rw [hname] at h
          cases h
      | some field =>
          obtain rfl := name_of_ofName? hname
          rw [hname] at h
          by_cases hseen : seen.contains field = true
          · simp only [hseen, if_true] at h
            cases h
          · simp only [hseen] at h
            cases hset : setField s field d with
            | error problem =>
                rw [hset] at h
                cases h
            | ok u =>
                rw [hset] at h
                obtain ⟨hnodup, hfree⟩ := ih h
                have hfield : field.name ∉ ms.map Prod.fst := hfree field (by simp)
                refine ⟨List.nodup_cons.mpr ⟨hfield, hnodup⟩, fun f hf => ?_⟩
                rw [List.map_cons, List.mem_cons, not_or]
                refine ⟨fun heq => ?_, hfree f (List.mem_cons_of_mem _ hf)⟩
                have hsame : f = field := by
                  have hf' := congrArg Field.ofName? heq
                  simpa [Field.ofName?_name] using hf'
                simp [← hsame, hf] at hseen

end Members

section Documents

theorem ofDocument_record {ms : List (String × Document)} :
    ofDocument (.record ms) = setMembers [] default ms := by
  rw [Document.record, ofDocument]
  cases setMembers [] default ms <;> rfl

theorem ofDocument_members (c : Settings) (h : fields.Nodup) :
    ofDocument (.record (c.members fields)) = .ok (c.overlay default fields) := by
  rw [ofDocument_record, ← List.append_nil (c.members fields)]
  exact setMembers_append h (by simp) []

theorem setItems_map (c : Settings) (rest : List Field) :
    setItems s (fields ++ rest) (fields.map c.fieldDocument) = .ok (c.overlay s fields) := by
  induction fields generalizing s with
  | nil =>
      rw [overlay_nil]
      cases rest <;> rfl
  | cons field fields ih =>
      rw [List.cons_append, List.map_cons, setItems, setField_fieldDocument,
        overlay_cons c s field fields]
      exact ih

theorem ofDocument_unknown {before after : List (String × Document)} (hfields : fields.Nodup)
    (hbefore : c.members fields = before ++ after) (hname : name ∉ SettingsProblem.fieldNames) :
    ofDocument (.record (before ++ (name, d) :: after)) = .error (.unknownField name) := by
  obtain ⟨first, last, rfl, rfl, -⟩ := List.map_eq_append_iff.mp hbefore
  have hfirst := (List.nodup_append.mp hfields).1
  rw [ofDocument_record]
  exact (setMembers_append hfirst (by simp) _).trans (setMembers_unknown hname)

theorem ofDocument_repeated {before after : List (String × Document)}
    (hbefore : c.members fields = before ++ after) (hfield : field ∈ fields) :
    ∃ problem, ofDocument (.record (before ++ (field.name, d) :: after)) = .error problem := by
  cases hread : ofDocument (.record (before ++ (field.name, d) :: after)) with
  | error problem => exact ⟨problem, rfl⟩
  | ok t =>
      rw [ofDocument_record] at hread
      obtain ⟨hnodup, -⟩ := names_of_setMembers hread
      have hmem : (field.name, c.fieldDocument field) ∈ before ++ after := by
        rw [← hbefore]
        exact List.mem_map_of_mem hfield
      rw [List.map_append, List.map_cons, List.nodup_append, List.nodup_cons] at hnodup
      obtain ⟨-, ⟨hlast, -⟩, hfirst⟩ := hnodup
      rcases List.mem_append.mp hmem with hmem | hmem
      · exact absurd rfl (hfirst _ (List.mem_map_of_mem hmem) field.name (by simp))
      · exact absurd (List.mem_map_of_mem hmem) hlast

-- Settings are read from what they are written as, from any of their fields in any order and
-- from an array of the first of them, with the defaults for the rest. A further member does
-- not go with any of their fields if it is no field or one of these.
theorem ofDocument_layouts (c : Settings) :
    ofDocument c.toDocument = .ok c ∧
      (∀ fields : List Field, fields.Nodup →
        ofDocument (.record (c.members fields)) = .ok (c.overlay default fields) ∧
          ∀ before after d, c.members fields = before ++ after →
            (∀ name ∉ SettingsProblem.fieldNames,
              ofDocument (.record (before ++ (name, d) :: after)) = .error (.unknownField name)) ∧
            ∀ field ∈ fields, ∃ problem,
              ofDocument (.record (before ++ (field.name, d) :: after)) = .error problem) ∧
      ∀ count, ofDocument (.array ((Field.all.take count).map c.fieldDocument)) =
        .ok (c.overlay default (Field.all.take count)) := by
  refine ⟨?_, fun fields hfields => ⟨ofDocument_members c hfields, ?_⟩, fun count => ?_⟩
  · rw [toDocument_eq, ofDocument_members c (by decide), overlay_all]
  · intro before after d hbefore
    exact ⟨fun name hname => ofDocument_unknown hfields hbefore hname,
      fun field hfield => ofDocument_repeated hbefore hfield⟩
  · have hitems : setItems default (Field.all.take count ++ Field.all.drop count)
        ((Field.all.take count).map c.fieldDocument) =
        .ok (c.overlay default (Field.all.take count)) := setItems_map c _
    rwa [List.take_append_drop] at hitems

end Documents

-- Some fields of settings in another order than theirs, with a further member in between.
theorem ofDocument_layouts_reordered :
    let c : Settings := { default with
      kinds := (NameMap.empty.insert "stars" Builtin.intOpReduced).insert "archived" Builtin.flag
      maxScore := some 64
      cache := false }
    let fields : List Field := [.cache, .kinds]
    let before := c.members [.cache]
    let after := c.members [.kinds]
    fields.Nodup ∧ c.members fields = before ++ after ∧
      ofDocument (.record (c.members fields)) =
        .ok { default with kinds := c.kinds, cache := false } ∧
      "max_depth" ∉ SettingsProblem.fieldNames ∧
      ofDocument (.record (before ++ ("max_depth", .integer 3) :: after)) =
        .error (.unknownField "max_depth") ∧
      .kinds ∈ fields ∧
      ∃ problem, ofDocument (.record (before ++ (Field.kinds.name, .null) :: after)) =
        .error problem := by
  intro c fields before after
  have hnodup : fields.Nodup := by decide
  have hkinds : .kinds ∈ fields := by decide
  have hdepth : "max_depth" ∉ SettingsProblem.fieldNames := by decide
  obtain ⟨hread, hfurther⟩ := (ofDocument_layouts c).2.1 fields hnodup
  have hunknown := (hfurther before after (.integer 3) rfl).1 "max_depth" hdepth
  have hrepeated := (hfurther before after .null rfl).2 .kinds hkinds
  exact ⟨hnodup, rfl, hread, hdepth, hunknown, hkinds, hrepeated⟩

end Settings

end SearchQuery
