import Logo.Token.Dump
import Logo.Token.Scan

/-!
# Narration

What a session tells about itself, apart from what its program writes. Each note has a level, and a
session records the notes up to the level that it was set to.
-/

namespace Logo

/-- How much a session tells. Each level includes those before it. -/
inductive Verbosity where
  /-- Nothing. -/
  | silent
  /-- Modules that are loaded. -/
  | terse
  /-- Procedures that are registered or defined. -/
  | chatty
  /-- Lines that are split into tokens. -/
  | verbose
  /-- Tokens that are about to run. -/
  | logorrheic
  deriving DecidableEq, Repr

namespace Verbosity

/-- The place of a level among the levels. -/
def rank : Verbosity → Nat
  | silent => 0
  | terse => 1
  | chatty => 2
  | verbose => 3
  | logorrheic => 4

/-- Whether a session at level `v` tells what belongs to `level`. Nothing belongs to silence. -/
def admits (v level : Verbosity) : Bool :=
  level != silent && level.rank ≤ v.rank

/-- The level of a name. -/
def ofName? : String → Option Verbosity
  | "silent" => some silent
  | "terse" => some terse
  | "chatty" => some chatty
  | "verbose" => some verbose
  | "logorrheic" => some logorrheic
  | _ => none

end Verbosity

/-- Something that a session tells. -/
inductive Note where
  /-- A module was loaded, with so many procedures. -/
  | loaded (name : String) (procedures : Nat)
  /-- A procedure was registered. -/
  | registered (name : String) (inputs : Nat)
  /-- The program defined a procedure. -/
  | defined (name : String)
  /-- A line was split into tokens. -/
  | scanned (result : Scan)
  /-- The tokens that are about to run. -/
  | running (tokens : List Token)
  /-- A remark of the host. -/
  | remark (level : Verbosity) (text : String)

namespace Note

/-- The level of a note. -/
def level : Note → Verbosity
  | loaded _ _ => .terse
  | registered _ _ => .chatty
  | defined _ => .chatty
  | scanned _ => .verbose
  | running _ => .logorrheic
  | remark level _ => level

/-- What became of a line. -/
def scanText : Scan → String
  | .complete tokens => "complete, " ++ toString tokens.length ++ " tokens"
  | .incomplete tokens _ => "incomplete, " ++ toString tokens.length ++ " tokens"
  | .failure cause => "failed: " ++ cause.message

/-- The text of a note. A session does not measure time, so that the time for which a line was
looked at is given by the caller. -/
def render (elapsed : String) : Note → String
  | loaded name procedures =>
    "loaded module " ++ name ++ " (" ++ toString procedures ++ " procedures)"
  | registered name inputs => "registered " ++ name ++ " (" ++ toString inputs ++ " inputs)"
  | defined name => name ++ " defined"
  | scanned result => "tokenized in " ++ elapsed ++ ": " ++ scanText result
  | running tokens => "\n".intercalate (dumpTokens tokens)
  | remark _ text => text

end Note

end Logo
