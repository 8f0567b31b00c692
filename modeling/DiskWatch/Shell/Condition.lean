/-
DiskWatch/Shell/Condition.lean

The conditions of `test`: about texts, numbers and files, with negation,
brackets and connectives.  The number of arguments decides what a condition is,
so that a text that looks like an operator can still be compared.
-/
import DiskWatch.Shell.Effect

namespace DiskWatch.Shell

/-- Why a condition has no truth value. -/
inductive ConditionFault
  | illegalNumber (text : String)
  | unexpected (text : String)
  | openBracket
  deriving DecidableEq, Repr

/-- The fault in words. -/
def ConditionFault.message : ConditionFault → String
  | .illegalNumber text => "Illegal number: " ++ text
  | .unexpected text => text ++ ": unexpected operator"
  | .openBracket => "missing ]"

/-- A number in a condition. -/
def operand (s : String) : Except ConditionFault Int :=
  let ds := match s.toList with
    | '-' :: ds | ds => ds
  match Text.readUpTo (1 <<< 63) ds with
  | .ok _ => .ok (numberOf s)
  | .error _ => .error (.illegalNumber s)

/-- A condition on one text, by its operator. -/
def unary? (host : Host) (operator text : String) : Option Bool :=
  let place := (host.find ⟨text⟩).toOption.map (·.2)
  match operator with
  | "-n" => some (text != "")
  | "-z" => some (text == "")
  | "-e" | "-r" => some place.isSome
  | "-d" => some (place == some .directory)
  | "-f" => some (place.any fun
      | .file _ | .program _ => true
      | _ => false)
  | "-x" => some (place.any fun
      | .directory | .program _ => true
      | _ => false)
  | "-s" => some (place.any fun
      | .file content => !content.isEmpty
      | .source _ => false
      | _ => true)
  | _ => none

/-- A condition on two texts, by its operator. -/
def binary? (first operator second : String) : Option (Except ConditionFault Bool) :=
  let numbers (holds : Int → Int → Bool) : Option (Except ConditionFault Bool) :=
    some do return holds (← operand first) (← operand second)
  match operator with
  | "=" | "==" => some (.ok (first == second))
  | "!=" => some (.ok (first != second))
  | "-eq" => numbers (· == ·)
  | "-ne" => numbers (· != ·)
  | "-lt" => numbers (· < ·)
  | "-le" => numbers (· ≤ ·)
  | "-gt" => numbers (· > ·)
  | "-ge" => numbers (· ≥ ·)
  | _ => none

/-- The words before and behind an operator. -/
def splitAtWord (word : String) (words : List String) : Option (List String × List String) :=
  match words.dropWhile (· != word) with
  | [] => none
  | _ :: rest => some (words.takeWhile (· != word), rest)

/-- Whether a condition holds.  The first argument counts the conditions within
each other. -/
def holds (host : Host) : Nat → List String → Except ConditionFault Bool
  | 0, words => .error (.unexpected (words.headD ""))
  | fuel + 1, words =>
    let several : Except ConditionFault Bool := do
      match splitAtWord "-o" words, splitAtWord "-a" words with
      | some (first, second), _ => return (← holds host fuel first) || (← holds host fuel second)
      | none, some (first, second) => return (← holds host fuel first) && (← holds host fuel second)
      | none, none =>
        match words with
        | "!" :: rest => return !(← holds host fuel rest)
        | _ => .error (.unexpected ((words[1]?).getD ""))
    match words with
    | [] => .ok false
    | [text] => .ok (text != "")
    | ["!", text] => .ok (text == "")
    | [operator, text] =>
      match unary? host operator text with
      | some b => .ok b
      | none => .error (.unexpected operator)
    | [first, operator, second] => (binary? first operator second).getD several
    | _ => several

/-- Whether the condition of `test` holds, or of a bracket that has to be
closed. -/
def conditionHolds (host : Host) (bracket : Bool) (arguments : List String) :
    Except ConditionFault Bool :=
  if bracket then
    if arguments.getLast? == some "]" then holds host arguments.length arguments.dropLast
    else .error .openBracket
  else holds host (arguments.length + 1) arguments

end DiskWatch.Shell
