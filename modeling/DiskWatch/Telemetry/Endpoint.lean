/-
DiskWatch/Telemetry/Endpoint.lean

The address that telemetry is sent to: a scheme, an authority and a path, or an
authority or a path alone.  The address is checked before anything is sent; the
first thing that is wrong with it is the fault.

Main result: an authority that is accepted ends at the first separator
(`scanAuthority_ok`).
-/

namespace DiskWatch.Endpoint

/-- What is wrong with an address. -/
inductive Fault
  | empty
  | tooLong
  | badCharacter
  | badAuthority
  | badFormat
  | longScheme
  deriving DecidableEq, Repr

/-- The fault in words. -/
def Fault.message : Fault → String
  | .empty => "empty string"
  | .tooLong => "uri too long"
  | .badCharacter => "invalid uri character"
  | .badAuthority => "invalid authority"
  | .badFormat => "invalid format"
  | .longScheme => "scheme too long"

/-! ### Characters -/

/-- A character of a scheme. -/
def isSchemeChar (c : Char) : Bool := c.isAlphanum || c == '+' || c == '-' || c == '.'

/-- A character that ends an authority. -/
def isSeparator (c : Char) : Bool := c == '/' || c == '?' || c == '#'

/-- A character that may stand in an authority. -/
def isAuthorityChar (c : Char) : Bool :=
  c.isAlphanum || "!$&'()*+,-.:;=@[]_~".toList.contains c

/-- A character that may stand in a path. -/
def isPathChar (c : Char) : Bool :=
  let n := c.toNat
  n == 0x21 || n == 0x22 || (0x24 ≤ n && n ≤ 0x3B) || n == 0x3D || (0x40 ≤ n && n ≤ 0x5F) ||
    0x61 ≤ n

/-- A character that may stand in a query. -/
def isQueryChar (c : Char) : Bool :=
  let n := c.toNat
  n == 0x21 || (0x24 ≤ n && n ≤ 0x3B) || n == 0x3D || 0x3F ≤ n

/-! ### The authority -/

/-- An authority that is being read. -/
structure Authority where
  colons : Nat
  bracketOpened : Bool
  bracketClosed : Bool
  percent : Bool
  /-- Whether the last character was the mark behind a user's name. -/
  endsAtUser : Bool
  deriving DecidableEq, Repr

namespace Authority

/-- Nothing read yet. -/
def start : Authority := ⟨0, false, false, false, false⟩

/-- The colons that an address in brackets and a number behind it can have. -/
def maxColons : Nat := 8

/-- Takes one character.  Colons and percent signs count only from the last
mark behind a user's name or the last closing bracket on. -/
def next (a : Authority) (c : Char) : Except Fault Authority :=
  let a := { a with endsAtUser := c == '@' }
  match c with
  | ':' =>
    if maxColons ≤ a.colons then .error .badAuthority
    else .ok { a with colons := a.colons + 1 }
  | '[' =>
    if a.percent || a.bracketOpened then .error .badAuthority
    else .ok { a with bracketOpened := true }
  | ']' =>
    if !a.bracketOpened || a.bracketClosed then .error .badAuthority
    else .ok { a with bracketClosed := true, colons := 0, percent := false }
  | '@' => .ok { a with colons := 0, percent := false }
  | '%' => .ok { a with percent := true }
  | c => if isAuthorityChar c then .ok a else .error .badCharacter

/-- Whether an authority is complete. -/
def isComplete (a : Authority) : Bool :=
  a.bracketOpened == a.bracketClosed && a.colons ≤ 1 && !a.endsAtUser && !a.percent

end Authority

/-- Reads an authority; what it ends at comes behind it. -/
def scanAuthority : Authority → List Char → Except Fault (List Char)
  | a, [] => if a.isComplete then .ok [] else .error .badAuthority
  | a, c :: cs =>
    if isSeparator c then if a.isComplete then .ok (c :: cs) else .error .badAuthority
    else match a.next c with
      | .ok a => scanAuthority a cs
      | .error fault => .error fault

/-- An accepted authority ends at the first separator. -/
theorem scanAuthority_ok {a : Authority} {cs rest : List Char}
    (h : scanAuthority a cs = .ok rest) : rest = cs.dropWhile (!isSeparator ·) := by
  induction cs generalizing a with
  | nil =>
    simp only [scanAuthority] at h
    split at h <;> simp_all
  | cons c cs ih =>
    simp only [scanAuthority] at h
    by_cases hc : isSeparator c = true
    · rw [if_pos hc] at h
      split at h
      · cases h; simp [hc]
      · simp at h
    · rw [if_neg hc] at h
      split at h
      · simp [hc, ih h]
      · simp at h

/-! ### Path and query -/

/-- Checks a query up to the fragment, which may hold anything. -/
def checkQuery : List Char → Except Fault Unit
  | [] | '#' :: _ => .ok ()
  | c :: cs => if isQueryChar c then checkQuery cs else .error .badCharacter

/-- Checks a path and what follows it. -/
def checkPath : List Char → Except Fault Unit
  | [] | '#' :: _ => .ok ()
  | '?' :: cs => checkQuery cs
  | c :: cs => if isPathChar c then checkPath cs else .error .badCharacter

/-! ### Addresses -/

/-- The characters that a scheme may have. -/
def maxScheme : Nat := 64

/-- The text behind a scheme, if the address has one.  The two schemes of the
web are told from others without regard to case, others by their characters. -/
def dropScheme (cs : List Char) : Except Fault (Option (List Char)) :=
  let scheme := cs.takeWhile isSchemeChar
  match cs.drop scheme.length with
  | ':' :: '/' :: '/' :: rest =>
    if scheme.isEmpty && cs.length < 4 then .ok none
    else if maxScheme < scheme.length then .error .longScheme
    else .ok (some rest)
  | _ => .ok none

/-- Checks an authority that is the whole address. -/
def checkAlone (whole : Fault) (cs : List Char) : Except Fault Unit :=
  match scanAuthority .start cs with
  | .error fault => .error fault
  | .ok [] => .ok ()
  | .ok (_ :: _) => .error whole

/-- Checks an address with a scheme, behind the scheme. -/
def checkAbsolute (cs : List Char) : Except Fault Unit :=
  match scanAuthority .start cs with
  | .error fault => .error fault
  | .ok rest => if rest.length = cs.length then .error .badFormat else checkPath rest

/-- The bytes that an address may have. -/
def maxLength : Nat := 65534

/-- Checks an address. -/
def check (address : String) : Except Fault Unit :=
  if maxLength < address.utf8ByteSize then .error .tooLong
  else match address.toList with
    | [] => .error .empty
    | ['/'] | ['*'] => .ok ()
    | [c] => checkAlone .badCharacter [c]
    | '/' :: cs => checkPath ('/' :: cs)
    | cs =>
      match dropScheme cs with
      | .error fault => .error fault
      | .ok (some rest) => checkAbsolute rest
      | .ok none => checkAlone .badFormat cs

end DiskWatch.Endpoint
