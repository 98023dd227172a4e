-- Comparison operators, and their place before a value in a query.

namespace SearchQuery

inductive Operator
  | equal
  | notEqual
  | less
  | atMost
  | atLeast
  | greater
deriving DecidableEq, Repr

namespace Operator

-- All operators, in the order that tells apart values with different operators.
def all : List Operator :=
  [equal, notEqual, less, atMost, atLeast, greater]

def rank : Operator → Nat
  | equal => 0
  | notEqual => 1
  | less => 2
  | atMost => 3
  | atLeast => 4
  | greater => 5

def symbol : Operator → String
  | equal => "="
  | notEqual => "!="
  | less => "<"
  | atMost => "<="
  | atLeast => ">="
  | greater => ">"

def ofSymbol? (text : String) : Option Operator :=
  all.find? fun op => op.symbol == text

-- The operator at the start of a text and what follows it. The longer operators are
-- tried first, and a text without an operator asks for equality.
def splitChars : List Char → Operator × List Char
  | '!' :: '=' :: rest => (notEqual, rest)
  | '<' :: '=' :: rest => (atMost, rest)
  | '>' :: '=' :: rest => (atLeast, rest)
  | '=' :: rest => (equal, rest)
  | '<' :: rest => (less, rest)
  | '>' :: rest => (greater, rest)
  | rest => (equal, rest)

def split (text : String) : Operator × String :=
  let (op, rest) := splitChars text.toList
  (op, String.ofList rest)

theorem getElem?_all_rank (op : Operator) : all[op.rank]? = some op := by
  cases op <;> rfl

theorem rank_inj {a b : Operator} : a.rank = b.rank ↔ a = b := by
  cases a <;> cases b <;> decide

theorem ofSymbol?_symbol (op : Operator) : ofSymbol? op.symbol = some op := by
  cases op <;> rfl

end Operator

-- The operators that do not include equality in an order: what is left when the others
-- are reduced to them.
inductive StrictOperator
  | equal
  | notEqual
  | less
  | greater
deriving DecidableEq, Repr

namespace StrictOperator

def all : List StrictOperator :=
  [equal, notEqual, less, greater]

def widen : StrictOperator → Operator
  | equal => .equal
  | notEqual => .notEqual
  | less => .less
  | greater => .greater

def rank (op : StrictOperator) : Nat :=
  op.widen.rank

def symbol (op : StrictOperator) : String :=
  op.widen.symbol

def ofSymbol? (text : String) : Option StrictOperator :=
  all.find? fun op => op.symbol == text

theorem widen_inj {a b : StrictOperator} : a.widen = b.widen ↔ a = b := by
  cases a <;> cases b <;> decide

theorem ofSymbol?_symbol (op : StrictOperator) : ofSymbol? op.symbol = some op := by
  cases op <;> rfl

end StrictOperator

end SearchQuery
