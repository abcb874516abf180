import CodeAudit.Data.Display
namespace CodeAudit.Schema

/-- A step from a value to one inside it. -/
inductive Step
  | field (name : String)
  | item (index : Nat)
  deriving DecidableEq, Repr

/-- What is wrong with a value. -/
inductive Problem
  | notText
  | notInteger
  | unreadableInteger
  | integerTooLarge
  | fractional
  | notFinite
  | notNumber
  | unreadableNumber
  | notAbove (bound : Int)
  | below (bound : Int)
  | notTruth
  | unreadableTruth
  | notList
  | notSequence
  | notOneOf (literal : Bool) (choices : List String)
  | notPath
  | missing
  | unexpected
  | noSuchField (name : String)
  | notRecord (model : String)
  | rejected (reason : String)
  deriving DecidableEq, Repr

/-- Choices between single quotes, the last two joined by a word. -/
def alternatives : List String → String
  | [] => ""
  | [a] => "'" ++ a ++ "'"
  | [a, b] => "'" ++ a ++ "' or '" ++ b ++ "'"
  | a :: rest => "'" ++ a ++ "', " ++ alternatives rest

namespace Problem

/-- The name of the rule that was broken. -/
def code : Problem → String
  | notText => "string_type"
  | notInteger => "int_type"
  | unreadableInteger => "int_parsing"
  | integerTooLarge => "int_parsing_size"
  | fractional => "int_from_float"
  | notFinite => "finite_number"
  | notNumber => "float_type"
  | unreadableNumber => "float_parsing"
  | notAbove _ => "greater_than"
  | below _ => "greater_than_equal"
  | notTruth => "bool_type"
  | unreadableTruth => "bool_parsing"
  | notList => "list_type"
  | notSequence => "tuple_type"
  | notOneOf literal _ => if literal then "literal_error" else "enum"
  | notPath => "path_type"
  | missing => "missing"
  | unexpected => "extra_forbidden"
  | noSuchField _ => "no_such_attribute"
  | notRecord _ => "model_type"
  | rejected _ => "value_error"

def message : Problem → String
  | notText => "Input should be a valid string"
  | notInteger => "Input should be a valid integer"
  | unreadableInteger => "Input should be a valid integer, unable to parse string as an integer"
  | integerTooLarge => "Unable to parse input string as an integer, exceeded maximum size"
  | fractional => "Input should be a valid integer, got a number with a fractional part"
  | notFinite => "Input should be a finite number"
  | notNumber => "Input should be a valid number"
  | unreadableNumber => "Input should be a valid number, unable to parse string as a number"
  | notAbove bound => "Input should be greater than " ++ integerText bound
  | below bound => "Input should be greater than or equal to " ++ integerText bound
  | notTruth => "Input should be a valid boolean"
  | unreadableTruth => "Input should be a valid boolean, unable to interpret input"
  | notList => "Input should be a valid list"
  | notSequence => "Input should be a valid tuple"
  | notOneOf _ choices => "Input should be " ++ alternatives choices
  | notPath => "Input is not a valid path for <class 'pathlib.Path'>"
  | missing => "Field required"
  | unexpected => "Extra inputs are not permitted"
  | noSuchField name => "Object has no attribute '" ++ name ++ "'"
  | notRecord model => "Input should be a valid dictionary or instance of " ++ model
  | rejected reason => "Value error, " ++ reason

end Problem

/-- A problem and the place where it was found. -/
structure Issue where
  loc : List Step
  problem : Problem
  deriving DecidableEq, Repr

def Issue.under (step : Step) (issue : Issue) : Issue := { issue with loc := step :: issue.loc }

end CodeAudit.Schema
