import SearchQuery.Proofs.Json.Conditions
import SearchQuery.Proofs.Numeral.Rounding

-- The numbers of documents, and that what is read from documents has finite numbers only.

namespace SearchQuery

open SearchQuery.Numeral SearchQuery.Calendar

namespace Document

mutual

-- Whether all numbers are such as JSON text can write: integers that a word of 64 bits holds,
-- with or without a sign, and finite floating-point numbers.
def fits : Document → Bool
  | integer n => -0x8000000000000000 ≤ n && n < 0x10000000000000000
  | float x => x.isFinite
  | array items => allFit items
  | object members _ => membersFit members
  | _ => true

def allFit : List Document → Bool
  | [] => true
  | d :: ds => fits d && allFit ds

def membersFit : List (String × Document) → Bool
  | [] => true
  | (_, d) :: members => fits d && membersFit members

end

-- What stands directly inside a document.
def contents : Document → List Document
  | array items => items
  | object members _ => members.map Prod.snd
  | _ => []

@[simp] theorem fits_array (items : List Document) : (array items).fits = items.all fits := by
  rw [fits]
  induction items with
  | nil => rfl
  | cons d ds ih => rw [allFit, ih, List.all_cons]

@[simp] theorem fits_object (members : List (String × Document)) (closed : Bool) :
    (object members closed).fits = members.all fun m => m.2.fits := by
  rw [fits]
  induction members with
  | nil => rfl
  | cons m members ih => rw [membersFit, ih, List.all_cons]

@[simp] theorem fits_record (members : List (String × Document)) :
    (record members).fits = members.all fun m => m.2.fits :=
  fits_object members true

@[simp] theorem fits_string (text : String) : (string text).fits = true := rfl

variable {d e : Document} {members : List (String × Document)} {name : String}

theorem fits_of_mem_contents (h : d.fits) (he : e ∈ d.contents) : e.fits := by
  cases d with
  | array items =>
    rw [fits_array, List.all_eq_true] at h
    exact h e he
  | object members closed =>
    rw [fits_object, List.all_eq_true] at h
    obtain ⟨m, hm, rfl⟩ := List.mem_map.mp he
    exact h m hm
  | _ => cases he

theorem fits_of_only {closed : Bool} (h : (object [(name, d)] closed).fits) : d.fits :=
  fits_of_mem_contents h (List.mem_singleton_self d)

theorem mem_contents_of_memberOf (h : memberOf name members = some e) (closed : Bool) :
    e ∈ (object members closed).contents :=
  List.mem_map_of_mem (mem_of_memberOf h)

theorem isFinite_of_float? {x : Binary64} (h : d.fits) (hx : d.float? = some x) : x.isFinite := by
  cases d with
  | integer n =>
    cases hx
    simp only [fits, Bool.and_eq_true, decide_eq_true_eq] at h
    exact Binary64.isFinite_ofInt (by omega)
  | float y =>
    cases hx
    exact h
  | _ => cases hx

end Document

open Document

-- By induction on the reading: what a comparison is read from fits as the whole does.
theorem Value.isFinite_of_ofDocument {d : Document} {v : Value} (hfits : d.fits)
    (h : Value.ofDocument d = some v) : v.isFinite := by
  fun_induction Value.ofDocument d generalizing v with
  | case5 contents | case6 contents | case8 contents =>
    obtain ⟨_, _, rfl⟩ := Option.map_eq_some_iff.mp h
    rfl
  | case7 contents =>
    -- the only case in which a number of the document becomes one of the value
    obtain ⟨x, hx, rfl⟩ := Option.map_eq_some_iff.mp h
    exact isFinite_of_float? (fits_of_only hfits) hx
  | case9 members value _ hvalue _ _ _ hread _ _ _ _ _ _ ih =>
    cases h
    rw [isFinite]
    exact ih (fits_of_mem_contents (fits_of_only hfits) (mem_contents_of_memberOf hvalue true))
      hread
  | case15 members value _ _ hvalue _ _ _ _ hread _ _ _ _ _ _ _ ih =>
    cases h
    rw [isFinite]
    exact ih (fits_of_mem_contents (fits_of_only hfits) (mem_contents_of_memberOf hvalue true))
      hread
  | case12 value _ _ _ hread _ _ _ _ _ _ ih =>
    cases h
    rw [isFinite]
    exact ih (fits_of_mem_contents (fits_of_only hfits) List.mem_cons_self) hread
  | case18 value _ _ _ hread _ _ _ _ _ _ _ ih =>
    cases h
    rw [isFinite]
    exact ih (fits_of_mem_contents (fits_of_only hfits) List.mem_cons_self) hread
  | case20 value _ _ _ _ _ _ hread _ _ _ _ _ _ _ ih =>
    cases h
    rw [isFinite]
    exact ih (fits_of_mem_contents (fits_of_only hfits) List.mem_cons_self) hread
  | case1 | case3 =>
    cases h
    rfl
  | _ => cases h

namespace Condition

-- What a condition is read from stands inside the document it is read from.
inductive Within (d : Document) : Condition → Prop
  | not {e : Document} {o : Condition} (mem : e ∈ d.contents) (read : ofDocumentAt true e = some o) :
      Within d (not o)
  | and {e : Document} {os : List Condition} (mem : e ∈ d.contents) (read : operandsOf e = some os) :
      Within d (and os)
  | or {e : Document} {os : List Condition} (mem : e ∈ d.contents) (read : operandsOf e = some os) :
      Within d (or os)
  | leaf {e : Document} {v : Value} (kind : String) (mem : e ∈ d.contents)
      (read : Value.ofDocument e = some v) : Within d (leaf kind v)

theorem within_of_ofMembers {members : List (String × Document)} {form : Form} {c : Condition}
    (h : ofMembers members form = some c) : Within (.record members) c := by
  cases form with
  | not =>
    obtain ⟨o, ho, rfl⟩ := Option.map_eq_some_iff.mp h
    obtain ⟨e, he, hread⟩ := Option.bind_eq_some_iff.mp ho
    exact .not (mem_contents_of_memberOf he true) hread
  | and =>
    obtain ⟨os, hos, rfl⟩ := Option.map_eq_some_iff.mp h
    obtain ⟨e, he, hread⟩ := Option.bind_eq_some_iff.mp hos
    exact .and (mem_contents_of_memberOf he true) hread
  | or =>
    obtain ⟨os, hos, rfl⟩ := Option.map_eq_some_iff.mp h
    obtain ⟨e, he, hread⟩ := Option.bind_eq_some_iff.mp hos
    exact .or (mem_contents_of_memberOf he true) hread
  | leaf =>
    obtain ⟨kind, hkind, h⟩ := Option.bind_eq_some_iff.mp h
    obtain ⟨v, hv, h⟩ := Option.bind_eq_some_iff.mp h
    obtain ⟨e, he, hread⟩ := Option.bind_eq_some_iff.mp hv
    cases h
    exact .leaf kind (mem_contents_of_memberOf he true) hread

theorem within_of_ofDocumentAt {nested : Bool} {d : Document} {c : Condition}
    (h : ofDocumentAt nested d = some c) : Within d c := by
  rw [ofDocumentAt.eq_def] at h
  split at h
  · next members =>
    have hrecord := ofDocumentAt_record nested members
    rw [Document.record, ofDocumentAt.eq_def] at hrecord
    simp only at hrecord
    obtain ⟨form, hform, h⟩ := Option.bind_eq_some_iff.mp (hrecord.symm.trans h)
    exact within_of_ofMembers h
  · next form parts =>
    split at h
    · next operand _ =>
      obtain ⟨o, hread, rfl⟩ := Option.map_eq_some_iff.mp h
      exact .not (.tail form (.head _)) hread
    · obtain ⟨os, hread, rfl⟩ := Option.map_eq_some_iff.mp h
      exact .and (.tail form (.head _)) hread
    · obtain ⟨os, hread, rfl⟩ := Option.map_eq_some_iff.mp h
      exact .or (.tail form (.head _)) hread
    · split at h
      · next kind v hkind hread =>
        cases h
        exact .leaf kind (.tail form (.tail _ (.head _))) hread
      · cases h
    · cases h
  · cases h

-- The conditions of an array are read from its items, one from each.
theorem exists_mem_of_conditionsOf {items : List Document} {cs : List Condition}
    (h : conditionsOf items = some cs) {c : Condition} (hc : c ∈ cs) :
    ∃ e ∈ items, ofDocumentAt true e = some c := by
  induction items generalizing cs with
  | nil =>
    rw [conditionsOf] at h
    cases h
    cases hc
  | cons item items ih =>
    rw [conditionsOf] at h
    split at h
    · next o os hitem hitems =>
      cases h
      cases hc with
      | head => exact ⟨item, List.mem_cons_self, hitem⟩
      | tail _ hc =>
        obtain ⟨e, he, hread⟩ := ih hitems hc
        exact ⟨e, List.mem_cons_of_mem item he, hread⟩
    · cases h

theorem exists_mem_of_operandsOf {d : Document} {cs : List Condition}
    (h : operandsOf d = some cs) {c : Condition} (hc : c ∈ cs) :
    ∃ e ∈ d.contents, ofDocumentAt true e = some c := by
  rw [operandsOf.eq_def] at h
  split at h
  · exact exists_mem_of_conditionsOf h hc
  · cases h

theorem all_isFinite_of_operandsOf {d : Document} {cs : List Condition} (hfits : d.fits)
    (h : operandsOf d = some cs)
    (hfinite : ∀ c ∈ cs, ∀ e : Document, e.fits → ofDocumentAt true e = some c → c.isFinite) :
    cs.all isFinite := by
  rw [List.all_eq_true]
  intro c hc
  obtain ⟨e, he, hread⟩ := exists_mem_of_operandsOf h hc
  exact hfinite c hc e (fits_of_mem_contents hfits he) hread

-- By induction on the condition: each operand is read from something inside the document.
theorem isFinite_of_ofDocumentAt {nested : Bool} {d : Document} {c : Condition} (hfits : d.fits)
    (h : ofDocumentAt nested d = some c) : c.isFinite := by
  induction c generalizing nested d with
  | not o ih =>
    cases within_of_ofDocumentAt h with
    | not he hread => exact ih (fits_of_mem_contents hfits he) hread
  | and os ih =>
    cases within_of_ofDocumentAt h with
    | and he hread =>
      rw [isFinite_and]
      exact all_isFinite_of_operandsOf (fits_of_mem_contents hfits he) hread
        fun o ho e hfits hread => ih o ho hfits hread
  | or os ih =>
    cases within_of_ofDocumentAt h with
    | or he hread =>
      rw [isFinite_or]
      exact all_isFinite_of_operandsOf (fits_of_mem_contents hfits he) hread
        fun o ho e hfits hread => ih o ho hfits hread
  | leaf kind v =>
    cases within_of_ofDocumentAt h with
    | leaf _ he hread =>
      rw [isFinite_leaf]
      exact Value.isFinite_of_ofDocument (fits_of_mem_contents hfits he) hread

end Condition

end SearchQuery
