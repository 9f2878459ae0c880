import CodeAtlas.Text.Case
import CodeAtlas.Text.Pattern

/-!
# What the lines of a declaration suggest

Conditions and effects read off single lines: tags of the documentation that state a precondition,
assertions and guards in the body, and calls that reach the network, the file system, a database,
global state or the environment. Lines that look like comments do not count.
-/

namespace CodeAtlas

open Text.Pattern

/-- A documented parameter: its name and its description. -/
def docParamPattern : Text.Pattern :=
  inOrder [textStart,
    anyOf [
      inOrder [lit "@param", someBlanks,
        opt (inOrder [lit "\x7b", plus (.except '\x7d'), lit "\x7d", blanks])],
      inOrder [lit ":param", someBlanks]],
    capture 1 (plus .word), opt (lit ":"), someBlanks, capture 2 (plus inLine), textEnd]

/-- A documented error. -/
def docThrowsPattern : Text.Pattern :=
  inOrder [textStart, Text.Pattern.words ["@throws", "@raises", "@exception", ":raises"], blanks,
    capture 1 (plus inLine), textEnd]

/-- An assertion with parentheses. -/
def assertCallPattern : Text.Pattern :=
  inOrder [wordEdge, lit "assert", opt (Text.Pattern.words ["!", "_eq!", "_ne!"]), blanks, lit "(",
    capture 1 (plus (.except ')')), lit ")"]

/-- An assertion without parentheses. -/
def assertStatementPattern : Text.Pattern :=
  inOrder [textStart, lit "assert", someBlanks,
    capture 1 (seq (one (.compl (.union (.single '(') (.single ',')))) (star (.except ',')))]

/-- A guard that leaves when a condition fails. -/
def negatedGuardPattern : Text.Pattern :=
  inOrder [lit "if", blanks, lit "(", blanks, lit "!", blanks, capture 1 (plus (.except ')')),
    lit ")", blanks, Text.Pattern.words ["\x7b", "throw", "return"]]

/-- A guard in the notation of Python. -/
def notGuardPattern : Text.Pattern :=
  inOrder [textStart, lit "if", someBlanks, lit "not", someBlanks, capture 1 (reluctantPlus inLine),
    lit ":"]

/-- A guard against a missing value. -/
def nilGuardPattern : Text.Pattern :=
  inOrder [textStart, lit "if", someBlanks,
    capture 1 (plus (.union .word (.single '.'))), blanks, lit "==", blanks,
    lit "nil", blanks, lit "\x7b"]

/-- A condition in parentheses. -/
def conditionPattern : Text.Pattern :=
  inOrder [lit "if", blanks, lit "(", capture 1 (plus (.except ')')), lit ")"]

/-- Does a line look like a comment? -/
def isCommentLine (line : String) : Bool :=
  ["//", "#", "/*", "*"].any (Text.startsWith · line)

/-- The condition stated by a line of documentation. -/
def statedCondition (line : String) : List String :=
  match docParamPattern.search? line with
  | some found =>
    let description := Text.trim (found.captured 2)
    let small := Text.lower description
    if ["must", "required", "should be", "cannot be"].any (Text.contains · small) then
      ["@param " ++ found.captured 1 ++ ": " ++ description]
    else []
  | none =>
    match docThrowsPattern.search? line with
    | some found => ["@throws " ++ Text.trim (found.captured 1)]
    | none => []

/-- The condition asserted by a line of code. -/
def assertedCondition (line : String) : List String :=
  match (assertCallPattern.search? line).or (assertStatementPattern.search? line) with
  | some found => ["Asserts: " ++ Text.trim (found.captured 1)]
  | none => []

/-- The condition under which a line of code lets the body go on. -/
def guardedCondition (line : String) : List String :=
  match (negatedGuardPattern.search? line).or (notGuardPattern.search? line) with
  | some found => ["Requires: " ++ Text.trim (found.captured 1)]
  | none =>
    match nilGuardPattern.search? line with
    | some found => ["Requires: " ++ found.captured 1 ++ " != nil"]
    | none =>
      if Text.contains "throw new" line || Text.contains "return false" line then
        match conditionPattern.search? line with
        | some found =>
          let condition := Text.trim (found.captured 1)
          if ["!", "null", "undefined", "None", "nil"].any (Text.contains · condition) then
            ["Requires: " ++ condition]
          else []
        | none => []
      else []

/-- The lines of a text that are code. -/
def codeLines (text : String) : List String :=
  ((Text.lines text).map Text.trim).filter fun line => !isCommentLine line

/-- The conditions stated by the documentation and checked by the text of a declaration. -/
def conditionsOf (doc : Option String) (text : String) : List String :=
  let stated := ((Text.lines (doc.getD "")).map Text.trim).flatMap statedCondition
  let checked := (codeLines text).flatMap fun line =>
    assertedCondition line ++ guardedCondition line
  (stated ++ checked).eraseDups

/-- A word, a blank run and an opening parenthesis. -/
def callOf (name : String) : Text.Pattern := inOrder [wordEdge, lit name, blanks, lit "("]

/-- A text at the start of a word. -/
def wordStart (text : String) : Text.Pattern := seq wordEdge (lit text)

/-- Reaching over the network. -/
def networkPattern : Text.Pattern :=
  anyOf [callOf "fetch", wordStart "axios.",
    inOrder [wordStart "http.",
      Text.Pattern.words ["request", "get", "post", "Get", "Post", "NewRequest"], blanks, lit "("],
    lit "XMLHttpRequest",
    inOrder [wordStart "requests.", Text.Pattern.words ["get", "post", "put", "patch", "delete"],
      blanks, lit "("],
    wordStart "urllib.", wordStart "reqwest::", lit "TcpStream::connect", wordStart "net.Dial"]

/-- Reading or writing files. -/
def filesystemPattern : Text.Pattern :=
  anyOf [inOrder [wordStart "fs.", plus .word],
    inOrder [wordEdge, Text.Pattern.words ["readFileSync", "writeFileSync"], wordEdge],
    inOrder [wordStart "fs::",
      Text.Pattern.words ["read", "write", "create_dir", "remove", "copy", "rename"],
      star .word],
    inOrder [wordStart "File::", Text.Pattern.words ["open", "create"]],
    callOf "open", callOf "fopen",
    inOrder [wordStart "os.",
      Text.Pattern.words ["Open", "Create", "ReadFile", "WriteFile", "Remove", "remove", "unlink",
        "mkdir", "makedirs"], wordEdge],
    wordStart "shutil.",
    inOrder [wordStart "Files.", Text.Pattern.words ["read", "write", "delete", "copy"]]]

/-- Asking a database. -/
def databasePattern : Text.Pattern :=
  inOrder [wordEdge,
    Text.Pattern.words ["db", "pool", "connection", "conn", "client", "cursor", "session"], lit ".",
    Text.Pattern.words ["query", "execute", "exec"], star .word, blanks, lit "("]

/-- Changing global state. -/
def globalStatePattern : Text.Pattern :=
  anyOf [
    inOrder [wordEdge,
      Text.Pattern.words ["globalThis", "window", "localStorage", "sessionStorage"], lit "."],
    inOrder [wordStart "document.", plus (.compl .blank), blanks, lit "=",
      one (.except '=')],
    inOrder [textStart, lit "global", someBlanks, plus .word],
    inOrder [wordStart "static", someBlanks, lit "mut", wordEdge]]

/-- Reading the environment. -/
def environmentPattern : Text.Pattern :=
  anyOf [lit "process.env", lit "process.cwd", lit "import.meta.env", wordStart "os.environ",
    wordStart "os.getenv", wordStart "os.Getenv", wordStart "env::var", wordStart "std::env::",
    lit "System.getenv", callOf "getenv"]

/-- The kinds of effects and how their lines look. -/
def effectPatterns : List (String × Text.Pattern) :=
  [("Network I/O", networkPattern), ("Filesystem I/O", filesystemPattern),
   ("Database query", databasePattern), ("Global state mutation", globalStatePattern),
   ("Environment access", environmentPattern)]

/-- The kinds of effects that the text of a declaration seems to have, in the order of their first
line. -/
def effectsOf (text : String) : List String :=
  ((codeLines text).flatMap fun line =>
    (effectPatterns.filter fun (_, pattern) => pattern.found line).map (·.1)).eraseDups

end CodeAtlas
