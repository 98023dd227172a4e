import SearchQuery.Text.Blank

-- Tokens: a query cut into words, with its groups, choices and negations resolved, and
-- before any word is given a meaning.

namespace SearchQuery

inductive Token
  | word (text : String)
  | negated (token : Token)
  | group (tokens : List Token)
  | choice (branches : List Token)
deriving Inhabited

namespace Token

-- One token stands for itself, any other number of them for a group.
def gather : List Token → Token
  | [token] => token
  | tokens => group tokens

-- A token under a number of negations.
def negate : Nat → Token → Token
  | 0, token => token
  | n + 1, token => negated (negate n token)

-- The mark between the branches of a choice, as a word of its own.
def isBar : Token → Bool
  | word text => text == "|"
  | _ => false

mutual

-- A token is empty unless it holds a word that is not blank.
def isEmpty : Token → Bool
  | word text => Text.isBlank text
  | negated token => isEmpty token
  | group tokens => allEmpty tokens
  | choice branches => allEmpty branches

def allEmpty : List Token → Bool
  | [] => true
  | token :: tokens => isEmpty token && allEmpty tokens

end

-- Emptiness at one glance, for tokens whose lists hold no empty token: such a list is
-- empty only if nothing is in it.
def looksEmpty : Token → Bool
  | word text => Text.isBlank text
  | negated token => looksEmpty token
  | group tokens => tokens.isEmpty
  | choice branches => branches.isEmpty

theorem allEmpty_eq_all (tokens : List Token) : allEmpty tokens = tokens.all isEmpty := by
  induction tokens with
  | nil => rfl
  | cons token tokens ih => simp [allEmpty, ih]

theorem isEmpty_negate (n : Nat) (token : Token) : (negate n token).isEmpty = token.isEmpty := by
  induction n with
  | zero => rfl
  | succ n ih => simpa [negate, isEmpty] using ih

theorem looksEmpty_negate (n : Nat) (token : Token) :
    (negate n token).looksEmpty = token.looksEmpty := by
  induction n with
  | zero => rfl
  | succ n ih => simpa [negate, looksEmpty] using ih

theorem gather_singleton (token : Token) : gather [token] = token :=
  rfl

end Token

end SearchQuery
