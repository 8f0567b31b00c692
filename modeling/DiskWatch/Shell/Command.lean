/-
DiskWatch/Shell/Command.lean

Commands of the shell that host programs are tried with.  A word is a list of
pieces, because what is between quotation marks is not cut into fields.
-/

namespace DiskWatch.Shell

mutual

/-- A piece of a word. -/
inductive Piece
  | plain (text : List Char)
  | quoted (text : List Char)
  | parameter (name : String) (quoted : Bool)
  /-- The value of an expression. -/
  | arithmetic (text : List Char)
  /-- What a command prints. -/
  | output (command : Command) (quoted : Bool)

/-- A change of descriptors for one command. -/
inductive Redirection
  | copy (descriptor source : Nat)
  | close (descriptor : Nat)
  | write (descriptor : Nat) (file : List Piece)
  | read (file : List Piece)

/-- A command. -/
inductive Command
  /-- A program or builtin with its arguments, and the number of line ends in the
  script from there on. -/
  | simple (linesLeft : Nat) (settings : List (String × List Piece)) (words : List (List Piece))
      (redirections : List Redirection)
  /-- Commands between brackets, in a process of their `own` or not. -/
  | group (own : Bool) (command : Command) (redirections : List Redirection)
  | pipe (first second : Command)
  | negated (command : Command)
  | both (first second : Command)
  | either (first second : Command)
  | sequence (first second : Command)
  | background (command : Command)
  /-- One command or another one, as a test succeeds or not. -/
  | branch (test yes no : Command)
  /-- A command again and again while a test gives the `wanted` answer. -/
  | loop (wanted : Bool) (test body : Command)
  /-- A command for each field of some words, or for each parameter. -/
  | each (name : String) (words : Option (List (List Piece))) (body : Command)
  | nothing

end

/-- The redirections of a command as a whole. -/
def Command.redirections : Command → List Redirection
  | .simple _ _ _ rs | .group _ _ rs => rs
  | _ => []

/-- The redirections of a command that changes the descriptors of all that
follow it. -/
def Command.rebinds? : Command → Option (List Redirection)
  | .simple _ [] [[.plain word]] rs => if word == "exec".toList then some rs else none
  | _ => none

/-- A command with redirections of its own. -/
def Command.redirected (c : Command) (rs : List Redirection) : Command :=
  if rs.isEmpty then c else .group false c rs

end DiskWatch.Shell
