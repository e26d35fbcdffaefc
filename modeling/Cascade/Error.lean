import Cascade.Node.Kind

/-!
# Errors

Every way in which building, evaluating or printing a tree can fail is a constructor of
`Error`; `Error.message` has the wording.  `Halt` adds the outcome of an evaluation that
was stopped before it came to an end, which is no error of the tree.
-/

namespace Cascade

/-- A place in a source file, as messages give it. -/
structure Position where
  index : Nat
  filename : Option String
deriving DecidableEq, Repr

/-- The four classes of errors. -/
inductive ErrorClass where
  | number
  | position
  | evaluation
  | unsupported
deriving DecidableEq, Repr

/-- Why building, evaluating or printing a tree failed. -/
inductive Error where
  /-- The text of a number is not one, or the number is not a number. -/
  | badNumber (text : String)
  | unknownOperator (operator : String)
  | incompatibleUnits (left right : String)
  | multipleUnits (units : String)
  | badColor (text : String)
  | emptyName
  | ownAncestor
  | secondParent
  | missingArgument (function : String) (position : Nat)
  | expectedDimension (function : String) (position : Nat) (found : Kind)
  | expectedColor (function : String) (position : Nat) (found : Kind)
  | notAUnit (found : Kind)
  /-- A function that evaluates its own arguments was given none of the scope. -/
  | needsScope
  | noScope
  | emptyScope
  | noFunctions
  | unknownFunction (name : String)
  | unevaluable (found : Kind) (function : String)
  | rulesetAsValue (position : Position)
  | bareProportion (position : Position)
  | scriptDisabled
  | scriptUnsupported (source : String)
  | badOperands
  | missingMiddle
  | recursiveVariable (name : String)
  | undefinedVariable (name : String)
  | uncallable (name : String)
deriving DecidableEq, Repr

namespace Error

/-- The class of an error. -/
def errorClass : Error → ErrorClass
  | .badNumber _ => .number
  | .rulesetAsValue _ | .bareProportion _ => .position
  | .scriptDisabled | .scriptUnsupported _ => .unsupported
  | _ => .evaluation

/-- The place an error points to, if its class has one. -/
def position? : Error → Option Position
  | .rulesetAsValue position | .bareProportion position => some position
  | _ => none

/-- The same error at another place, if its class has one. -/
def relocate (position : Position) : Error → Error
  | .rulesetAsValue _ => .rulesetAsValue position
  | .bareProportion _ => .bareProportion position
  | error => error

/-- What went wrong, without the heading of the class. -/
def detail : Error → String
  | .badNumber text => text
  | .unknownOperator operator => "未知的运算符: " ++ operator
  | .incompatibleUnits left right =>
    "Incompatible units. Change the units or use the unit function. Bad units: '" ++ left ++
      "' and '" ++ right ++ "'."
  | .multipleUnits units =>
    "Multiple units in dimension. Correct the units or use the unit function. Bad unit: " ++ units
  | .badColor text => "无法解析颜色: " ++ text
  | .emptyName => "声明名称不能为空"
  | .ownAncestor => "节点不能成为自身或祖先节点的子节点"
  | .secondParent => "节点已经拥有父节点"
  | .missingArgument function position =>
    function ++ " 缺少第 " ++ toString position ++ " 个参数"
  | .expectedDimension function position found =>
    function ++ " 的第 " ++ toString position ++ " 个参数必须是数值，实际为 " ++ found.name
  | .expectedColor function position found =>
    function ++ " 的第 " ++ toString position ++ " 个参数必须是颜色，实际为 " ++ found.name
  | .notAUnit found => "无法把 " ++ found.name ++ " 用作单位"
  | .needsScope => "该函数需要求值上下文"
  | .noScope => "函数调用缺少求值上下文"
  | .emptyScope => "函数调用时作用域为空"
  | .noFunctions => "当前作用域没有函数表"
  | .unknownFunction name => "function " ++ name ++ " is not registered"
  | .unevaluable found function =>
    "argument of type " ++ found.name ++ " passed to " ++ function ++ " cannot be evaluated"
  | .rulesetAsValue _ => "Rulesets cannot be evaluated on a property."
  | .bareProportion _ => "Invalid % without number"
  | .scriptDisabled => "inline JavaScript is not enabled. Is it set in your options?"
  | .scriptUnsupported source =>
    "evaluating inline JavaScript `" ++ source ++ "` is not supported"
  | .badOperands => "Operation on an invalid type"
  | .missingMiddle => "查询条件缺少中间值"
  | .recursiveVariable name => "Recursive variable definition for " ++ name
  | .undefinedVariable name => "variable " ++ name ++ " is undefined"
  | .uncallable name => "Could not evaluate variable call " ++ name

/-- The full text of an error: the heading of its class, what went wrong, and where. -/
def message (error : Error) : String :=
  match error.errorClass, error.position? with
  | .number, _ => "无效的数值: " ++ error.detail
  | .evaluation, _ => "语义求值失败: " ++ error.detail
  | .unsupported, _ => "不支持的操作: " ++ error.detail
  | .position, position =>
    "语法错误: " ++ error.detail ++ " (位置 " ++
      toString ((position.map Position.index).getD 0) ++ ")"

end Error

/-- Why an evaluation gave no result: an error, or the depth allowed to it was used up. -/
inductive Halt where
  | failed (error : Error)
  | exhausted
deriving DecidableEq, Repr

/-- The same reason, with an error that names a place reported at another one. -/
def Halt.relocate (position : Position) : Halt → Halt
  | .failed error => .failed (error.relocate position)
  | .exhausted => .exhausted

end Cascade
