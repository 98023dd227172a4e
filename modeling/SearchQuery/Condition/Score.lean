import SearchQuery.Condition.Basic
import SearchQuery.Vocabulary

-- The score of a condition bounds what it costs to work on it further.

namespace SearchQuery.Condition

mutual

-- A negation counts 1 more than its operand, and a list of operands 1 for each of them
-- on top of their own scores.
def score (v : Vocabulary) : Condition → Score
  | not operand => Score.add (score v operand) 1
  | and operands => scoreAll v (Score.ofCount operands.length) operands
  | or operands => scoreAll v (Score.ofCount operands.length) operands
  | leaf kind value => v.scoreValue kind value

def scoreAll (v : Vocabulary) (sum : Score) : List Condition → Score
  | [] => sum
  | operand :: operands => scoreAll v (Score.add sum (score v operand)) operands

end

end SearchQuery.Condition
