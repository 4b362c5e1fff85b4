-- The command line: what the arguments ask for, what a file gives to read,
-- and what is written for it.
import OnePass.Analysis
import OnePass.Report.Snippet
import OnePass.Scopes.Outline

namespace OnePass

/-! ## Source files -/

/-- Why a file gave no text. -/
inductive Unreadable where
  | missing
  /-- A file on the way, where only a folder leads further. -/
  | notFolder
  | folder
  | nameTooLong
  /-- The bytes of the file are no UTF-8. -/
  | notText
  | other (message : String)
deriving DecidableEq

/-- The reason in words. -/
def Unreadable.message : Unreadable → String
  | missing => "No such file or directory (os error 2)"
  | notFolder => "Not a directory (os error 20)"
  | folder => "Is a directory (os error 21)"
  | nameTooLong => "File name too long (os error 36)"
  | notText => "stream did not contain valid UTF-8"
  | other m => m

/-- The text that the bytes of a file hold. A mark at its start is kept. -/
def decodeSource (contents : ByteArray) : Except Unreadable String :=
  match String.fromUTF8? contents with
  | some text => .ok text
  | none => .error .notText

/-! ## Arguments -/

/-- What the arguments ask for. -/
structure Options where
  path : String
  dumpTokens : Bool
  dumpScopes : Bool
  verbose : Bool
deriving DecidableEq

/-- What a run leaves. -/
structure Output where
  exit : Nat
  out : String
  err : String
deriving DecidableEq

namespace Options

/-- No path yet, and no flags. -/
def blank : Options := ⟨"", false, false, false⟩

/-- Sets the path, which can be set once. -/
def setPath? (o : Options) (path : String) : Option Options :=
  if o.path.isEmpty ∧ ¬path.isEmpty then some { o with path } else none

/-- Reads arguments behind `--`: there are no flags any more. -/
def readPaths? (o : Options) : List String → Option Options
  | [] => some o
  | a :: as => (o.setPath? a).bind (readPaths? · as)

/-- Reads arguments one by one. A flag can be given once. -/
def readFrom? (o : Options) : List String → Option Options
  | [] => some o
  | a :: as =>
    if a = "--" then o.readPaths? as
    else if a = "--dump-tokens" then
      if o.dumpTokens then none else readFrom? { o with dumpTokens := true } as
    else if a = "--dump-scopes" then
      if o.dumpScopes then none else readFrom? { o with dumpScopes := true } as
    else if a = "-v" ∨ a = "--verbose" then
      if o.verbose then none else readFrom? { o with verbose := true } as
    else if a.startsWith "-" ∧ a ≠ "-" then none
    else (o.setPath? a).bind (readFrom? · as)

/-- What the arguments ask for, if they ask for one file. -/
def read? (args : List String) : Option Options :=
  (blank.readFrom? args).filter fun o => !o.path.isEmpty

end Options

/-! ## Runs -/

/-- A text between two lines that name it, and an empty line. -/
def framed (name text : String) : String :=
  "=== " ++ name ++ " ===\n" ++ text ++ "=== End " ++ name ++ " ===\n\n"

/-- A part of the output that is asked for. -/
def onlyIf (wanted : Bool) (text : String) : String := if wanted then text else ""

/-- What is written for a file whose text is known. Everything but the
last word on a good program is for the error output. -/
def Options.runOn (o : Options) (source : String) : Output :=
  let (file, shelf) := Shelf.empty.add o.path source
  let before := onlyIf o.verbose ("Checking " ++ o.path ++ "\n") ++
    onlyIf o.dumpTokens (framed "Tokens" (listing (tokenize source))) ++
    onlyIf o.verbose "Analyzing...\n"
  match (analyze source).verdict with
  | .ok scopes =>
    ⟨0, "Syntax analysis finished successfully.\n",
      before ++ onlyIf o.dumpScopes (framed "Scopes" scopes.outline)⟩
  | .error r => ⟨1, "", before ++ (shelf.render? file r.complaint).getD ""⟩

/-- What is written for a file. -/
def Options.run (o : Options) (contents : Except Unreadable String) : Output :=
  match contents with
  | .ok source => o.runOn source
  | .error e =>
    let complaint := Complaint.unreadable e.message
    ⟨1, "", "error: cannot read " ++ o.path ++ ": " ++ complaint.shown ++ ": " ++
      complaint.message ++ "\n"⟩

end OnePass
