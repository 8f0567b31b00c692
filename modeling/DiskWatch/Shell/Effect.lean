/-
DiskWatch/Shell/Effect.lean

What a program reads and what it does: it prints, it ends with a status, and it
takes some time or never ends.  An input that never ends is known by its
beginning.
-/
import DiskWatch.Host

namespace DiskWatch.Shell

/-- What there is to read. -/
structure Feed where
  bytes : List UInt8
  /-- Whether more comes behind these bytes, for ever. -/
  endless : Bool
  deriving DecidableEq, Repr

/-- Nothing to read. -/
def Feed.empty : Feed := ⟨[], false⟩

/-- What a program does. -/
structure Effect where
  stdout : List UInt8
  stderr : List UInt8
  /-- What is left of the input. -/
  input : Feed
  status : Nat
  /-- The nanoseconds it takes; there are none if it never ends. -/
  lasts : Option Nat
  deriving DecidableEq, Repr

/-- The bytes of a text. -/
def bytes (cs : List Char) : List UInt8 := (String.ofList cs).toUTF8.toList

/-- The bytes of a line. -/
def lineBytes (s : String) : List UInt8 := s.toUTF8.toList ++ [10]

/-- Ends at once, having done nothing. -/
def Effect.quiet (status : Nat) (input : Feed) : Effect := ⟨[], [], input, status, some 0⟩

/-- Prints and ends at once. -/
def Effect.printing (stdout : List UInt8) (input : Feed) : Effect := ⟨stdout, [], input, 0, some 0⟩

/-- Complains and ends at once. -/
def Effect.complaining (text : String) (status : Nat) (input : Feed) : Effect :=
  ⟨[], lineBytes text, input, status, some 0⟩

/-- Reads the whole input and prints what becomes of it, for ever if need be. -/
def Effect.filtering (f : List UInt8 → List UInt8) (input : Feed) : Effect :=
  ⟨f input.bytes, [], .empty, 0, if input.endless then none else some 0⟩

/-- What there is to read in a file. -/
def feedAt (host : Host) (file : String) : Except HostFault Feed := do
  return ⟨← host.read ⟨file⟩, host.isSource ⟨file⟩⟩

/-- The number that an argument stands for, which is zero for one that is no
number. -/
def numberOf (s : String) : Int :=
  match s.toList with
  | '-' :: ds => -(((Text.readUpTo (1 <<< 63) ds).toOption).getD 0 : Nat)
  | ds => (((Text.readUpTo (UInt64.size - 1) ds).toOption).getD 0 : Nat)

end DiskWatch.Shell
