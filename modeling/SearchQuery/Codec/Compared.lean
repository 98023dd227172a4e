import SearchQuery.Codec.Plain
import SearchQuery.Value.Shown

-- Codecs for values with a comparison operator before them, derived from a codec for
-- the values alone. In the reduced form the operators that include equality give way to
-- the strict ones.

namespace SearchQuery.Codec

-- Moves a value one step: up for 1, down for -1.
abbrev Step := Value → Int → Except ValueError Value

def parseLiteral (base : Codec) (input : String) : Except ValueError (Operator × Value) :=
  let (op, rest) := Operator.split input
  (base.parse rest).map fun v => (op, v)

-- A strict comparison that says the same. With a step, the value moves and there is no
-- flag: at least 5 is more than 4. Without one, the flag negates the opposite
-- comparison: at least 5 is not less than 5.
def reduce (step? : Option Step) (op : Operator) (value : Value) : Except ValueError Value :=
  let plain (op : StrictOperator) : Value :=
    .reduced op value (if step?.isSome then none else some false)
  match op, step? with
  | .atLeast, some step => (step value (-1)).map fun v => .reduced .greater v none
  | .atLeast, none => .ok (.reduced .less value (some true))
  | .atMost, some step => (step value 1).map fun v => .reduced .less v none
  | .atMost, none => .ok (.reduced .greater value (some true))
  | .equal, _ => .ok (plain .equal)
  | .notEqual, _ => .ok (plain .notEqual)
  | .less, _ => .ok (plain .less)
  | .greater, _ => .ok (plain .greater)

-- Values with the same operator are ordered like the bare values, others like their
-- operators.
def compareRanked (base : Codec) (p : Nat) (a : Value) (q : Nat) (b : Value) : Ordering :=
  if p = q then base.compare a b else Ord.compare p q

-- Flags that differ decide before the operators, and an absent flag differs from none.
def compareCompared (base : Codec) : ValueOrder
  | .comparison p a, .comparison q b => compareRanked base p.rank a q.rank b
  | .reduced p a (some m), .reduced q b (some n) =>
      if m = n then compareRanked base p.rank a q.rank b else Ord.compare m n
  | .reduced p a _, .reduced q b _ => compareRanked base p.rank a q.rank b
  | _, _ => .eq

-- Whether a reduced comparison is negated.
def isNegated : Value → Bool
  | .reduced _ _ (some true) => true
  | _ => false

def scoreLiteral (base : Codec) : ValueScore
  | .comparison _ v => base.score v
  | v => base.score v

-- A negation counts 1 more.
def scoreReduced (base : Codec) : ValueScore
  | .reduced op v negated =>
      Score.add (if isNegated (.reduced op v negated) then 1 else 0) (base.score v)
  | v => base.score v

-- Values with their operators as they are written.
def withOperator (base : Codec) : Codec :=
  ⟨fun input => (parseLiteral base input).map fun (op, v) => .comparison op v,
    some base.compareCompared, some base.scoreLiteral⟩

-- Values with their operators reduced.
def withReducedOperator (base : Codec) (step? : Option Step) : Codec :=
  ⟨fun input => (parseLiteral base input).bind fun (op, v) => reduce step? op v,
    some base.compareCompared, some base.scoreReduced⟩

-- The step between integers. An integer that has no neighbour on that side has none to
-- move to.
def stepInt : Step := fun value diff =>
  match value with
  | .integer n =>
      let moved := n.toInt + diff
      if -0x8000000000000000 ≤ moved && moved < 0x8000000000000000 then
        .ok (.integer (Int64.ofInt moved))
      else
        let sign := if diff < 0 then "" else "+"
        let written := String.ofList (Numeral.integerText n.toInt)
        let step := String.ofList (Numeral.integerText diff)
        .error (.outOfRange s!"{written} {sign}{step}")
  | _ =>
      let shown := value.shown
      .error (.other s!"cannot reduce non-integer {shown}")

end SearchQuery.Codec
