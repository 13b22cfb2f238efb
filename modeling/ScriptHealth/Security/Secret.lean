import ScriptHealth.Security.Finding
import ScriptHealth.Text.Blank
import ScriptHealth.Text.Lines

/-!
# Secrets in source text

A line holds a secret when a keyword is followed by a colon or an equals sign and a quoted text
that is long enough, with blanks allowed around the sign. Letters are compared without regard to
case. Lines that look like comments are passed over, and each line gives one finding at most.

## Main definitions

* `SecretPattern.foundIn` decides whether a line holds a secret of a kind
* `scanSecrets` lists the findings of a text
-/

namespace ScriptHealth

/-- A kind of secret: its keywords in lower case, the characters of the quoted text, and the least
length of that text. -/
structure SecretPattern where
  name : String
  severity : Severity
  keywords : List (List Char)
  allows : Char → Bool
  least : Nat

namespace SecretPattern

/-- A letter without its case. Besides the ASCII letters, the dotted and the dotless i, the Kelvin
sign and the long s stand for letters of keywords. -/
def foldCase (c : Char) : Char :=
  let n := c.toNat
  if n = 0x130 ∨ n = 0x131 then 'i'
  else if n = 0x212A then 'k'
  else if n = 0x17F then 's'
  else c.toLower

/-- A letter or a digit, without regard to case. -/
def isWordChar (c : Char) : Bool := (foldCase c).isAlphanum

/-- Whether a character delimits the quoted text. -/
def isQuote (c : Char) : Bool := c == Text.quote || c == Text.apostrophe

/-- The sign between a keyword and its text. -/
def isAssign (c : Char) : Bool := c == ':' || c == '='

/-- Whether a quoted text of a secret stands at the start, closing quote included. -/
def quotedAt (p : SecretPattern) : List Char → Bool
  | [] => false
  | c :: r =>
    isQuote c &&
      (let body := r.takeWhile p.allows
       p.least ≤ body.length &&
        match r.dropWhile p.allows with
        | d :: _ => isQuote d
        | [] => false)

/-- Whether a sign and a quoted text follow, with blanks around the sign. -/
def valueAt (p : SecretPattern) (s : List Char) : Bool :=
  match Text.trimStart s with
  | c :: r => isAssign c && p.quotedAt (Text.trimStart r)
  | [] => false

/-- Whether a keyword and its value stand at the start. -/
def matchesAt (p : SecretPattern) (s : List Char) : Bool :=
  p.keywords.any fun k => (s.take k.length).map foldCase == k && p.valueAt (s.drop k.length)

/-- Whether a keyword and its value stand anywhere in the line. -/
def foundIn (p : SecretPattern) : List Char → Bool
  | [] => p.matchesAt []
  | c :: r => p.matchesAt (c :: r) || p.foundIn r

/-- What is said about a secret of this kind. -/
def description (p : SecretPattern) : String :=
  "Potential " ++ String.ofList (p.name.toList.map Char.toLower) ++
    " detected. Never commit secrets to source code. Use environment variables instead."

/-- The kinds of secrets, in the order in which they are tried. -/
def catalog : List SecretPattern :=
  [{ name := "Hardcoded API Key", severity := .high
     keywords := ["api_key".toList, "api-key".toList, "apikey".toList]
     allows := fun c => isWordChar c || c == '_' || c == '-'
     least := 16 },
   { name := "Hardcoded Secret/Password", severity := .critical
     keywords := ["secret".toList, "password".toList, "passwd".toList, "pwd".toList]
     allows := fun c => !isQuote c
     least := 8 },
   { name := "AWS Credentials", severity := .critical
     keywords := ["aws_access_key_id".toList, "aws_secret_access_key".toList]
     allows := fun c => isWordChar c || c == '/' || c == '+' || c == '='
     least := 16 },
   { name := "Private Key Exposure", severity := .critical
     keywords := ["private_key".toList, "private-key".toList, "privatekey".toList]
     allows := fun c => !isQuote c
     least := 20 },
   { name := "Hardcoded Token", severity := .high
     keywords := ["token".toList]
     allows := fun c => isWordChar c || c == '_' || c == '-' || c == '.'
     least := 20 }]

end SecretPattern

/-- Whether a line looks like a comment. -/
def isCommentLine (line : List Char) : Bool :=
  match Text.trim line with
  | '*' :: _ => true
  | '/' :: '/' :: _ => true
  | '/' :: '*' :: _ => true
  | _ => false

/-- The category of secrets. -/
def secretCategory : String := "Sensitive Data Exposure"

/-- The first kind of secret that a line holds. -/
def secretIn? (line : List Char) : Option SecretPattern :=
  if isCommentLine line then none else SecretPattern.catalog.find? (·.foundIn line)

/-- The finding of a secret in a line. -/
def secretFinding (path : String) (line : Nat) (p : SecretPattern) : Finding :=
  { name := p.name, severity := p.severity, description := .str p.description,
    source := .codeScan, category := secretCategory, file := some path, line := some line }

/-- The secrets of a text, in the order of its lines. -/
def scanSecrets (text path : String) : List Finding :=
  (Text.lines text.toList).zipIdx.filterMap fun (line, index) =>
    (secretIn? line).map (secretFinding path (index + 1))

end ScriptHealth
