import SearchQuery.Json.Document

-- What documents hold: the members of objects by name, and documents as plain data.

namespace SearchQuery

open SearchQuery.Numeral

-- The member of a name. Where it is there more than once there is none.
def memberOf (name : String) (members : List (String × Document)) : Option Document :=
  match members.filter fun m => m.1 == name with
  | [(_, value)] => some value
  | _ => none

-- The value of a member that may be missing or null, read by `read`. It may not be there
-- more than once.
def optionalMember {α : Type} (read : Document → Option α) (name : String)
    (members : List (String × Document)) : Option (Option α) :=
  match members.filter fun m => m.1 == name with
  | [] => some none
  | [(_, .null)] => some none
  | [(_, value)] => (read value).map some
  | _ => none

theorem mem_of_memberOf {name : String} {members : List (String × Document)} {value : Document}
    (h : memberOf name members = some value) : (name, value) ∈ members := by
  simp only [memberOf] at h
  split at h
  · next n d hfilter =>
    cases h
    have hfiltered : (n, value) ∈ members.filter fun m => m.1 == name := by
      rw [hfilter]
      exact List.mem_singleton_self _
    obtain ⟨hmem, hname⟩ := List.mem_filter.mp hfiltered
    obtain rfl : n = name := eq_of_beq hname
    exact hmem
  · cases h

theorem sizeOf_memberOf {name : String} {members : List (String × Document)} {value : Document}
    (h : memberOf name members = some value) : sizeOf value < sizeOf members := by
  have hlt := List.sizeOf_lt_of_mem (mem_of_memberOf h)
  simp only [Prod.mk.sizeOf_spec] at hlt
  omega

namespace Document

def text? : Document → Option String
  | string text => some text
  | _ => none

def boolean? : Document → Option Bool
  | boolean b => some b
  | _ => none

-- An integer that a signed word of 64 bits holds.
def int64? : Document → Option Int64
  | integer n =>
      if -0x8000000000000000 ≤ n && n < 0x8000000000000000 then some (Int64.ofInt n) else none
  | _ => none

-- An integer stands for the nearest floating-point number.
def float? : Document → Option Binary64
  | integer n => some (Binary64.ofInt n)
  | float x => some x
  | _ => none

-- What stands for nothing: null, or an object without members.
def isUnit : Document → Bool
  | null => true
  | object [] true => true
  | _ => false

-- The name of a choice without contents, on its own or as the only member of an object.
def choice? : Document → Option String
  | string name => some name
  | object [(name, contents)] true => if contents.isUnit then some name else none
  | _ => none

end Document

end SearchQuery
