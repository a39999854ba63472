import Reckoner.HostValue
import Reckoner.Decimal.Context
import Reckoner.Text.Upper

namespace Reckoner

inductive LexicalFault
  | exponentExpected
  | exponentOverflow
  | numberTooLarge
  | digitExpected
  | binaryOverflow
  | unknownOperator
  | invalidCharacter
  deriving DecidableEq, Repr, Inhabited

def LexicalFault.message : LexicalFault → String
  | exponentExpected => "Exponent expected."
  | exponentOverflow => "Exponent overflow."
  | numberTooLarge => "Number too large."
  | digitExpected => "Digit expected."
  | binaryOverflow => "Binary overflow."
  | unknownOperator => "Unknown operator."
  | invalidCharacter => "Invalid character."

/-- Why a text is no formula. A note is the host's own wording. -/
inductive SyntaxFault
  | lexical (fault : LexicalFault)
  | operandExpected
  | operatorExpected
  | variableExpected
  | closingBracketExpected
  | tooDeeplyNested
  | note (text : String)
  deriving DecidableEq, Repr, Inhabited

def SyntaxFault.message : SyntaxFault → String
  | lexical fault => fault.message
  | operandExpected => "Operand expected."
  | operatorExpected => "Operator expected."
  | variableExpected => "Variable expected."
  | closingBracketExpected => "Closing bracket expected."
  | tooDeeplyNested => "Expression too deeply nested."
  | note text => text

structure ParseError where
  fault : SyntaxFault
  position : Int
  length : Int
  deriving DecidableEq, Repr, Inhabited

def ParseError.message (e : ParseError) : String :=
  "Formula parse error: " ++ e.fault.message ++ " (at position " ++ Text.intText e.position ++ ")"

inductive EvalFault
  | noInteger (v : Value)
  | beyondWord (v : Value)
  | beyondDecimal (x : Float)
  | noConversion (tag : Tag)
  | negativeFactorial (v : Value)
  | unknownInstruction (text : String)
  | note (text : String)
  deriving DecidableEq, Repr, Inhabited

def EvalFault.message : EvalFault → String
  | noInteger v => "Value " ++ v.payloadText ++ " has no integer representation"
  | beyondWord v => "Value " ++ v.payloadText ++ " does not fit in a 64-bit integer"
  | beyondDecimal x => "Value " ++ Binary64.toText x ++ " is outside the decimal range"
  | noConversion tag => "Cannot convert to " ++ tag.display
  | negativeFactorial v => "Factorial is undefined for negative value " ++ v.payloadText
  | unknownInstruction text => "Unknown instruction: " ++ Text.quoted text
  | note text => text

inductive StackFault
  | overflow (capacity : Int)
  | underflow
  | unbalanced (size : Nat)
  | note (text : String)
  deriving DecidableEq, Repr, Inhabited

def StackFault.message : StackFault → String
  | overflow capacity => "Stack overflow: capacity " ++ Text.intText capacity ++ " exceeded"
  | underflow => "Stack underflow"
  | unbalanced size => "Expected one result on the stack, found " ++ Text.natText size
  | note text => text

inductive CallFault
  | unknown
  | arity (low high : Nat)
  | digitsNotFinite (digits : HostValue)
  | note (text : String)
  deriving BEq, Repr, Inhabited

def arityText (low high : Nat) : String :=
  if low = high then
    Text.natText low ++ if low = 1 then " argument" else " arguments"
  else Text.natText low ++ " to " ++ Text.natText high ++ " arguments"

def CallFault.message (name : String) : CallFault → String
  | unknown => "Unknown function: " ++ Text.quoted name
  | arity low high => Text.upper name ++ " requires " ++ arityText low high
  | digitsNotFinite digits => "ROUND digits must be finite, got " ++ digits.display
  | note text => text

inductive RangeFault
  | wholeToDouble
  | roundedTooLarge
  | digitsTooLarge
  | infinityToWhole
  | mathRange
  deriving DecidableEq, Repr, Inhabited

def RangeFault.message : RangeFault → String
  | wholeToDouble => "int too large to convert to float"
  | roundedTooLarge => "rounded value too large to represent"
  | digitsTooLarge => "Python int too large to convert to C ssize_t"
  | infinityToWhole => "cannot convert float infinity to integer"
  | mathRange => "math range error"

inductive ValueFault
  | notDouble (text : String)
  | notWhole (text : String)
  | nanToWhole
  | signalingToDouble
  | mathDomain
  | unsupportedBase (base : Int)
  | baseNeedsInteger (base : Int) (tag : Tag)
  | note (text : String)
  deriving DecidableEq, Repr, Inhabited

def ValueFault.message : ValueFault → String
  | notDouble text => "could not convert string to float: " ++ Text.quoted text
  | notWhole text => "invalid literal for int() with base 10: " ++ Text.quoted text
  | nanToWhole => "cannot convert float NaN to integer"
  | signalingToDouble => "cannot convert signaling NaN to float"
  | mathDomain => "math domain error"
  | unsupportedBase base => "Unsupported output base: " ++ Text.intText base
  | baseNeedsInteger base tag =>
    "Only integer results can be shown in base " ++ Text.intText base ++ ", got " ++ tag.name
  | note text => text

/-- Everything that ends a compilation or an evaluation early. `badValue` and
    `badKind` come from values that the host passes where they mean nothing. -/
inductive Error
  | formula (text : String)
  | parse (e : ParseError)
  | eval (fault : EvalFault)
  | notCompiled (source : String)
  | stack (fault : StackFault)
  | conversion (value : HostValue)
  | call (name : String) (fault : CallFault)
  | divisionByZero (text : String)
  | decimal (signal : Decimal.Signal)
  | range (fault : RangeFault)
  | badValue (fault : ValueFault)
  | badKind
  deriving BEq, Repr, Inhabited

namespace Error

def zeroDivision : Error := divisionByZero "Division by zero in formula"

def message : Error → String
  | formula text => text
  | parse e => e.message
  | eval fault => fault.message
  | notCompiled source => "Formula is not compiled: " ++ Text.quoted source
  | stack fault => fault.message
  | conversion value => "Cannot convert value of type " ++ value.kindName ++ " to a number"
  | call name fault => fault.message name
  | divisionByZero text => text
  | decimal .overflow => "[<class 'decimal.Overflow'>]"
  | decimal .invalid => "[<class 'decimal.InvalidOperation'>]"
  | range fault => fault.message
  | badValue fault => fault.message
  | badKind => ""

def code : Error → String
  | parse _ => "formula_syntax_error"
  | notCompiled _ => "formula_not_compiled"
  | conversion _ => "formula_conversion_error"
  | divisionByZero _ => "formula_division_by_zero"
  | _ => "formula_eval_error"

def isEngine : Error → Bool
  | badValue _ => false
  | badKind => false
  | _ => true

end Error

end Reckoner
