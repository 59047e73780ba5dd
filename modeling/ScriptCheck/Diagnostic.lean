import ScriptCheck.Syntax.Tree
import ScriptCheck.Ty.Display

/-!
# Mistakes in a script

A diagnostic names a problem and the node it was found at. The wording lives here alone: each problem has a code, a name, a
message, a label that stands at the place itself and, for some, a hint.
-/

namespace ScriptCheck

/-- What is wrong with the signature of a function that an operator or indexer needs. -/
inductive SignatureFlaw where
  /-- It should take so many parameters. -/
  | parameters (expected : Nat)
  /-- It should take no parameters. -/
  | noParameters
  /-- It returns a type that does not fit. -/
  | returns (ty : Ty)
  deriving DecidableEq, Repr

/-- How a flaw is put. -/
def SignatureFlaw.text : SignatureFlaw → String
  | parameters expected => "expected " ++ toString expected ++ " parameters"
  | noParameters => "expected no parameters"
  | returns ty => "returns " ++ ty.display

/-- What can be wrong with a script. -/
inductive Problem where
  | duplicateDeclaration (name : String)
  | unknownType (name : String)
  | ambiguousType (name : String) (count : Nat)
  | invalidBaseType (found : Ty)
  | cyclicBaseType (id : ItemId)
  | invalidVarType
  | undefinedIdentifier (name : String)
  | ambiguousIdentifier (name : String) (count : Nat)
  | typeNotValue (name : String)
  | unknownMember (ty : Ty) (member : Name)
  | ambiguousMember (ty : Ty) (member : Name) (count : Nat)
  | memberTypeArgs (member : Name) (expected found : Nat)
  /-- A static member was reached through a value, or (`isStatic` false) an instance member through a type. -/
  | staticInstanceMismatch (member : Name) (isStatic : Bool)
  | typeMismatch (expected found : Ty)
  | conditionNotBool (found : Ty)
  | voidValueUsed
  | cannotInferVarType (name : String)
  | invalidTypeTest (ty : Ty)
  | invalidOperand (op : String) (operands : List Ty)
  | notAssignable
  | operatorNotFound (ty : Ty) (op : Name)
  | operatorSignatureMismatch (ty : Ty) (op : Name) (flaw : SignatureFlaw)
  | indexerNotFound (ty : Ty)
  | readOnlyIndexer (ty : Ty)
  | writeOnlyIndexer (ty : Ty)
  | notCallable (ty : Ty)
  | wrongArgumentCount (expected found : Nat)
  | cannotInferTypeArgs (func : FuncRef) (param : Name)
  | captureFailed (name : String)
  | cannotInferLambdaParam (name : String)
  | missingReturnValue (expected : Ty)
  | returnValueInSequence
  | yieldOutsideSequence
  | invalidBreak
  | invalidContinue
  deriving DecidableEq, Repr

/-- A name or type in quotes. -/
def quoted (text : String) : String := "'" ++ text ++ "'"

/-- How several candidates are counted in a message. -/
def candidates (count : Nat) : String := " is ambiguous (" ++ toString count ++ " candidates)"

namespace Problem

/-- The code that stays the same however the message is worded. -/
def code : Problem → String
  | duplicateDeclaration _ => "E2001"
  | unknownType _ => "E2002"
  | ambiguousType _ _ => "E2003"
  | invalidBaseType _ => "E2004"
  | cyclicBaseType _ => "E2005"
  | invalidVarType => "E2006"
  | undefinedIdentifier _ => "E2010"
  | ambiguousIdentifier _ _ => "E2011"
  | typeNotValue _ => "E2012"
  | unknownMember _ _ => "E2013"
  | ambiguousMember _ _ _ => "E2014"
  | memberTypeArgs _ _ _ => "E2015"
  | staticInstanceMismatch _ _ => "E2016"
  | typeMismatch _ _ => "E2020"
  | conditionNotBool _ => "E2021"
  | voidValueUsed => "E2022"
  | cannotInferVarType _ => "E2023"
  | invalidTypeTest _ => "E2024"
  | invalidOperand _ _ => "E2025"
  | notAssignable => "E2030"
  | operatorNotFound _ _ => "E2031"
  | operatorSignatureMismatch _ _ _ => "E2032"
  | indexerNotFound _ => "E2033"
  | readOnlyIndexer _ => "E2034"
  | writeOnlyIndexer _ => "E2035"
  | notCallable _ => "E2040"
  | wrongArgumentCount _ _ => "E2041"
  | cannotInferTypeArgs _ _ => "E2042"
  | captureFailed _ => "E2050"
  | cannotInferLambdaParam _ => "E2051"
  | missingReturnValue _ => "E2060"
  | returnValueInSequence => "E2061"
  | yieldOutsideSequence => "E2062"
  | invalidBreak => "E2063"
  | invalidContinue => "E2064"

/-- The name of the kind of problem. -/
def kind : Problem → String
  | duplicateDeclaration _ => "DuplicateDeclaration"
  | unknownType _ => "UnknownType"
  | ambiguousType _ _ => "AmbiguousType"
  | invalidBaseType _ => "InvalidBaseType"
  | cyclicBaseType _ => "CyclicBaseType"
  | invalidVarType => "InvalidVarType"
  | undefinedIdentifier _ => "UndefinedIdentifier"
  | ambiguousIdentifier _ _ => "AmbiguousIdentifier"
  | typeNotValue _ => "TypeNotValue"
  | unknownMember _ _ => "UnknownMember"
  | ambiguousMember _ _ _ => "AmbiguousMember"
  | memberTypeArgs _ _ _ => "MemberTypeArgs"
  | staticInstanceMismatch _ _ => "StaticInstanceMismatch"
  | typeMismatch _ _ => "TypeMismatch"
  | conditionNotBool _ => "ConditionNotBool"
  | voidValueUsed => "VoidValueUsed"
  | cannotInferVarType _ => "CannotInferVarType"
  | invalidTypeTest _ => "InvalidTypeTest"
  | invalidOperand _ _ => "InvalidOperand"
  | notAssignable => "NotAssignable"
  | operatorNotFound _ _ => "OperatorNotFound"
  | operatorSignatureMismatch _ _ _ => "OperatorSignatureMismatch"
  | indexerNotFound _ => "IndexerNotFound"
  | readOnlyIndexer _ => "ReadOnlyIndexer"
  | writeOnlyIndexer _ => "WriteOnlyIndexer"
  | notCallable _ => "NotCallable"
  | wrongArgumentCount _ _ => "WrongArgumentCount"
  | cannotInferTypeArgs _ _ => "CannotInferTypeArgs"
  | captureFailed _ => "CaptureFailed"
  | cannotInferLambdaParam _ => "CannotInferLambdaParam"
  | missingReturnValue _ => "MissingReturnValue"
  | returnValueInSequence => "ReturnValueInSequence"
  | yieldOutsideSequence => "YieldOutsideSequence"
  | invalidBreak => "InvalidBreak"
  | invalidContinue => "InvalidContinue"

/-- The message. -/
def message : Problem → String
  | duplicateDeclaration name => quoted name ++ " is declared more than once"
  | unknownType name => "unknown type " ++ quoted name
  | ambiguousType name count => "type " ++ quoted name ++ candidates count
  | invalidBaseType found => quoted found.display ++ " cannot be used as a base type"
  | cyclicBaseType id => "type " ++ quoted id.display ++ " inherits from itself"
  | invalidVarType => "'var' is only allowed on local variable declarations"
  | undefinedIdentifier name => "undefined identifier " ++ quoted name
  | ambiguousIdentifier name count => "identifier " ++ quoted name ++ candidates count
  | typeNotValue name => "type " ++ quoted name ++ " used as a value"
  | unknownMember ty member => quoted ty.display ++ " has no member " ++ quoted member.display
  | ambiguousMember ty member count =>
    "member " ++ quoted member.display ++ " of " ++ quoted ty.display ++ candidates count
  | memberTypeArgs member expected found =>
    quoted member.display ++ " takes " ++ toString expected ++ " type arguments, found " ++ toString found
  | staticInstanceMismatch member isStatic =>
    quoted member.display ++ " is " ++ (if isStatic then "a static" else "an instance") ++ " member"
  | typeMismatch expected found => "expected " ++ expected.display ++ ", found " ++ found.display
  | conditionNotBool found => "condition must be bool, found " ++ found.display
  | voidValueUsed => "void value used"
  | cannotInferVarType name => "cannot infer the type of " ++ quoted name
  | invalidTypeTest ty => quoted ty.display ++ " is not a class, struct or enum type"
  | invalidOperand op operands =>
    "operator " ++ quoted op ++ " cannot be applied to " ++ " and ".intercalate (operands.map Ty.display)
  | notAssignable => "expression is not assignable"
  | operatorNotFound ty op => quoted ty.display ++ " has no " ++ op.display
  | operatorSignatureMismatch ty op _ => op.display ++ " of " ++ quoted ty.display ++ " has an incompatible signature"
  | indexerNotFound ty => quoted ty.display ++ " has no indexer"
  | readOnlyIndexer ty => "indexer of " ++ quoted ty.display ++ " is read-only"
  | writeOnlyIndexer ty => "indexer of " ++ quoted ty.display ++ " is write-only"
  | notCallable ty => quoted ty.display ++ " is not callable"
  | wrongArgumentCount expected found =>
    "expected " ++ toString expected ++ " arguments, found " ++ toString found
  | cannotInferTypeArgs func param =>
    "cannot infer type argument " ++ quoted param.display ++ " of " ++ quoted func.display
  | captureFailed name => "cannot capture " ++ quoted name
  | cannotInferLambdaParam name => "cannot infer the type of lambda parameter " ++ quoted name
  | missingReturnValue expected => "missing return value, expected " ++ expected.display
  | returnValueInSequence => "cannot return a value from a sequence function"
  | yieldOutsideSequence => "'yield' outside of a sequence function"
  | invalidBreak => "break outside of loop"
  | invalidContinue => "continue outside of loop"

/-- What is written at the place of the problem. -/
def label : Problem → String
  | duplicateDeclaration _ => "duplicate declaration"
  | unknownType _ => "no type with this name and arity"
  | ambiguousType _ _ => "ambiguous type"
  | invalidBaseType _ => "expected a class or struct"
  | cyclicBaseType _ => "base type cycle"
  | invalidVarType => "type must be written out here"
  | undefinedIdentifier _ => "not found in scope"
  | ambiguousIdentifier _ _ => "matches more than one declaration"
  | typeNotValue _ => "expected a value"
  | unknownMember _ _ => "unknown member"
  | ambiguousMember _ _ _ => "ambiguous member"
  | memberTypeArgs _ _ _ => "wrong number of type arguments"
  | staticInstanceMismatch _ _ => "wrong kind of access"
  | typeMismatch _ _ => "type mismatch"
  | conditionNotBool _ => "expected bool"
  | voidValueUsed => "this expression produces no value"
  | cannotInferVarType _ => "type unknown"
  | invalidTypeTest _ => "cannot test against this type"
  | invalidOperand _ _ => "invalid operand"
  | notAssignable => "cannot assign to this"
  | operatorNotFound _ _ => "operator not found"
  | operatorSignatureMismatch _ _ flaw => flaw.text
  | indexerNotFound _ => "cannot index"
  | readOnlyIndexer _ => "no indexer setter"
  | writeOnlyIndexer _ => "no indexer getter"
  | notCallable _ => "not a function"
  | wrongArgumentCount _ _ => "wrong number of arguments"
  | cannotInferTypeArgs _ _ => "type argument not inferred"
  | captureFailed _ => "captured variable does not resolve"
  | cannotInferLambdaParam _ => "type unknown"
  | missingReturnValue _ => "return needs a value"
  | returnValueInSequence => "value not allowed"
  | yieldOutsideSequence => "not in a sequence function"
  | invalidBreak => "not inside a loop"
  | invalidContinue => "not inside a loop"

/-- What might help. -/
def help? : Problem → Option String
  | ambiguousType _ _ => some "several referenced modules declare this type"
  | cannotInferVarType _ => some "add an initializer or write the type"
  | cannotInferTypeArgs _ _ => some "pass the type arguments explicitly"
  | cannotInferLambdaParam _ =>
    some "annotate the parameter or pass the lambda where a function type is expected"
  | returnValueInSequence => some "use 'yield' to produce values"
  | _ => none

end Problem

/-- A problem and the node it was found at. -/
structure Diagnostic where
  problem : Problem
  node : Node
  deriving DecidableEq, Repr

end ScriptCheck
