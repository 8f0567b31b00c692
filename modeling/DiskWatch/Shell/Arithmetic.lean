/-
DiskWatch/Shell/Arithmetic.lean

Arithmetic in a script: expressions over whole numbers of 64 bits, with names
that stand for numbers.

An expression is read by the levels of its operators: an operator takes in all
that binds more tightly, and operators of one level go from left to right.

Main result: an operation fails if and only if it divides by zero
(`Operator.apply_eq_error_iff`).
-/
import DiskWatch.Shell.Effect

namespace DiskWatch.Shell

/-! ### Expressions -/

/-- An operation on two numbers. -/
inductive Operator
  | either | both
  | equal | unequal
  | less | lessOrEqual | greater | greaterOrEqual
  | add | subtract
  | multiply | divide | remainder
  deriving DecidableEq, Repr

/-- An expression. -/
inductive Expression
  | number (n : Int)
  | named (name : String)
  | negative (e : Expression)
  | negation (e : Expression)
  | operation (o : Operator) (first second : Expression)
  deriving Repr

/-- Why an expression has no value. -/
inductive ArithmeticFault
  | divisionByZero
  | noOperand
  | unread
  | illegalNumber (text : String)
  deriving DecidableEq, Repr

/-- The fault in words, for the text of an expression. -/
def ArithmeticFault.message (text : String) : ArithmeticFault → String
  | .divisionByZero => "arithmetic expression: division by zero: \"" ++ text ++ "\""
  | .noOperand => "arithmetic expression: expecting primary: \"" ++ text ++ "\""
  | .unread => "arithmetic expression: expecting EOF: \"" ++ text ++ "\""
  | .illegalNumber number => "Illegal number: " ++ number

/-! ### Values -/

/-- The number that stands for a truth value. -/
def truth (b : Bool) : Int := if b then 1 else 0

/-- The result of an operation. -/
def Operator.apply (o : Operator) (a b : Int) : Except ArithmeticFault Int :=
  match o with
  | .either => .ok (truth (a != 0 || b != 0))
  | .both => .ok (truth (a != 0 && b != 0))
  | .equal => .ok (truth (a == b))
  | .unequal => .ok (truth (a != b))
  | .less => .ok (truth (a < b))
  | .lessOrEqual => .ok (truth (a ≤ b))
  | .greater => .ok (truth (b < a))
  | .greaterOrEqual => .ok (truth (b ≤ a))
  | .add => .ok ((a + b).bmod UInt64.size)
  | .subtract => .ok ((a - b).bmod UInt64.size)
  | .multiply => .ok ((a * b).bmod UInt64.size)
  | .divide => if b = 0 then .error .divisionByZero else .ok ((a.tdiv b).bmod UInt64.size)
  | .remainder => if b = 0 then .error .divisionByZero else .ok (a.tmod b)

theorem Operator.apply_eq_error_iff (o : Operator) (a b : Int) (f : ArithmeticFault) :
    o.apply a b = .error f ↔
      (o = .divide ∨ o = .remainder) ∧ b = 0 ∧ f = .divisionByZero := by
  cases o with
  | divide | remainder =>
    by_cases hb : b = 0
    · simp [apply, hb, eq_comm]
    · simp [apply, hb]
  | _ => simp [apply]

/-- The number that a text stands for; no text stands for zero. -/
def valueOf (text : String) : Except ArithmeticFault Int :=
  let ds := match text.toList with
    | '-' :: ds | ds => ds
  if ds.isEmpty then .ok 0
  else if ds.all Char.isDigit then .ok (numberOf text)
  else .error (.illegalNumber text)

/-- The value of an expression, where names have texts. -/
def Expression.value (lookup : String → String) : Expression → Except ArithmeticFault Int
  | .number n => .ok n
  | .named name => valueOf (lookup name)
  | .negative e => do return -(← e.value lookup)
  | .negation e => do return truth ((← e.value lookup) == 0)
  | .operation o first second => do
    let a ← first.value lookup
    let b ← second.value lookup
    o.apply a b

/-! ### Reading -/

/-- The text behind blanks. -/
def skipGap (cs : List Char) : List Char := cs.dropWhile fun c => c == ' ' || c == '\t' || c == '\n'

/-- An operator in front of a text, with its level. -/
def operator? : List Char → Option (Operator × Nat × List Char)
  | '|' :: '|' :: rest => some (.either, 1, rest)
  | '&' :: '&' :: rest => some (.both, 2, rest)
  | '=' :: '=' :: rest => some (.equal, 3, rest)
  | '!' :: '=' :: rest => some (.unequal, 3, rest)
  | '<' :: '=' :: rest => some (.lessOrEqual, 4, rest)
  | '>' :: '=' :: rest => some (.greaterOrEqual, 4, rest)
  | '<' :: rest => some (.less, 4, rest)
  | '>' :: rest => some (.greater, 4, rest)
  | '+' :: rest => some (.add, 5, rest)
  | '-' :: rest => some (.subtract, 5, rest)
  | '*' :: rest => some (.multiply, 6, rest)
  | '/' :: rest => some (.divide, 6, rest)
  | '%' :: rest => some (.remainder, 6, rest)
  | _ => none

/-- Whether a character may be in a name. -/
def isNameChar (c : Char) : Bool := c.isAlphanum || c == '_'

mutual

/-- An operand. -/
def readOperand : Nat → List Char → Except ArithmeticFault (Expression × List Char)
  | 0, _ => .error .noOperand
  | fuel + 1, cs =>
    match skipGap cs with
    | '-' :: rest => do
      let (e, rest) ← readOperand fuel rest
      .ok (.negative e, rest)
    | '+' :: rest => readOperand fuel rest
    | '!' :: rest => do
      let (e, rest) ← readOperand fuel rest
      .ok (.negation e, rest)
    | '(' :: rest => do
      let (e, rest) ← readFrom fuel 0 rest
      match skipGap rest with
      | ')' :: rest => .ok (e, rest)
      | _ => .error .noOperand
    | '$' :: c :: rest =>
      if isNameChar c then .ok (.named (String.ofList (c :: rest.takeWhile isNameChar)),
        rest.dropWhile isNameChar)
      else .ok (.named (String.singleton c), rest)
    | c :: rest =>
      let word := String.ofList (c :: rest.takeWhile isNameChar)
      if c.isDigit then .ok (.number (numberOf word), rest.dropWhile isNameChar)
      else if isNameChar c then .ok (.named word, rest.dropWhile isNameChar)
      else .error .noOperand
    | [] => .error .noOperand

/-- An expression whose operators have at least the given level. -/
def readFrom : Nat → Nat → List Char → Except ArithmeticFault (Expression × List Char)
  | 0, _, _ => .error .noOperand
  | fuel + 1, level, cs => do
    let (first, rest) ← readOperand fuel cs
    readOnto fuel level first rest

/-- An expression that goes on behind its first operand. -/
def readOnto : Nat → Nat → Expression → List Char → Except ArithmeticFault (Expression × List Char)
  | 0, _, _, _ => .error .noOperand
  | fuel + 1, level, first, cs =>
    match operator? (skipGap cs) with
    | none => .ok (first, cs)
    | some (o, own, rest) =>
      if own < level then .ok (first, cs)
      else do
        let (second, rest) ← readFrom fuel (own + 1) rest
        readOnto fuel level (.operation o first second) rest

end

/-- The value of the text of an expression; no expression has the value zero. -/
def calculate (lookup : String → String) (cs : List Char) : Except ArithmeticFault Int := do
  if (skipGap cs).isEmpty then return 0
  let (e, rest) ← readFrom (2 * cs.length + 4) 0 cs
  if (skipGap rest).isEmpty then e.value lookup else .error .unread

end DiskWatch.Shell
