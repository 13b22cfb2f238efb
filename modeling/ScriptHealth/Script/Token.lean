import ScriptHealth.Script.Piece
import ScriptHealth.Text.Blank

/-!
# Tokens of a script

Words, punctuation, numbers, strings and patterns. Punctuation is read greedily: of several marks
that start at a place the longest one is meant.
-/

namespace ScriptHealth.Script

open Parse

namespace Token

/-- Characters that never stand in a name. -/
def isMark (c : Char) : Bool :=
  c.toNat < 32 || isSpace c ||
    (":;\x60\x22\x27@#.,|^&<=>+-*/\\%?!~()[]\x7b\x7d".toList).contains c

/-- A character that a name may start with. -/
def startsName (c : Char) : Bool := !isMark c && !c.isDigit

/-- A hexadecimal digit. -/
def isHex (c : Char) : Bool := c.isDigit || ('a' ≤ c && c ≤ 'f') || ('A' ≤ c && c ≤ 'F')

/-- The length of an escaped character of a name. -/
def nameEscapeLength? : List Char → Option Nat
  | '\\' :: 'u' :: '\x7b' :: r =>
    let ds := r.takeWhile isHex
    match r.dropWhile isHex with
    | '\x7d' :: _ => if ds.isEmpty then none else some (ds.length + 4)
    | _ => none
  | '\\' :: 'u' :: a :: b :: c :: d :: _ =>
    if [a, b, c, d].all isHex then some 6 else none
  | _ => none

/-- The length of the rest of a name; the first `escaped` characters belong to an escape. -/
def nameTailLength : Nat → List Char → Nat
  | _, [] => 0
  | escaped + 1, _ :: r => nameTailLength escaped r + 1
  | 0, c :: r =>
    if !isMark c then nameTailLength 0 r + 1
    else
      match nameEscapeLength? (c :: r) with
      | some e => nameTailLength (e - 1) r + 1
      | none => 0

/-- The length of a name at the start of a text; zero if there is none. -/
def nameLength (s : List Char) : Nat :=
  match s with
  | [] => 0
  | c :: _ => if c.isDigit then 0 else nameTailLength 0 s

/-- The name at the start of a text. -/
def nameOf (s : List Char) : String := String.ofList (s.take (nameLength s))

/-- Words that are never names of values. -/
def reserved : List String :=
  ["break", "case", "catch", "class", "const", "continue", "debugger", "default", "delete", "do",
   "else", "export", "extends", "false", "finally", "for", "function", "if", "import", "in",
   "instanceof", "new", "null", "return", "super", "switch", "this", "throw", "true", "try",
   "typeof", "var", "void", "while", "with"]

/-- The marks, longer ones first. -/
def marks : List String :=
  [">>>=", "...", "===", "!==", "**=", "<<=", ">>=", ">>>", "&&=", "||=", "??=", "=>", "==", "!=",
   "<=", ">=", "&&", "||", "??", "?.", "++", "--", "+=", "-=", "*=", "/=", "%=", "&=", "|=", "^=",
   "<<", ">>", "**", "\x7b", "\x7d", "(", ")", "[", "]", ";", ",", "<", ">", "+", "-", "*", "/",
   "%", "&", "|", "^", "!", "~", "?", ":", "=", ".", "@", "#"]

/-- The mark at the start of a text. A question mark and a point before a digit are two marks. -/
def markOf? (s : List Char) : Option String :=
  match s with
  | '?' :: '.' :: d :: _ => if d.isDigit then some "?" else some "?."
  | _ => marks.find? fun m => m.toList.isPrefixOf s

/-- A mark, read greedily. -/
def mark (m : String) : Parse Piece := do
  ensure (markOf? (← look) == some m)
  leaf m false (skip m.length)

/-- A text that starts here, whatever follows it. -/
def exactly (m : String) : Parse Piece := do
  ensure (m.toList.isPrefixOf (← look))
  leaf m false (skip m.length)

/-- A keyword. -/
def word (w : String) : Parse Piece := do
  ensure (nameOf (← look) == w)
  leaf w false (skip w.length)

/-- Any name, reserved or not. -/
def anyName (kind : String) : Parse Piece := do
  let n := nameLength (← look)
  ensure (n != 0)
  leaf kind true (skip n)

/-- A name that is not reserved. -/
def name (kind : String) : Parse Piece := do
  ensure (!reserved.contains (nameOf (← look)))
  anyName kind

/-- A private name, with its number sign. -/
def privateName : Parse Piece := do
  match ← look with
  | '#' :: r =>
    let n := nameLength r
    ensure (n != 0)
    leaf "private_property_identifier" true (skip (n + 1))
  | _ => fail

/-- The word that follows after a gap. -/
def nextWord : Parse String := ahead (next (do return nameOf (← look)))

/-- The mark that follows after a gap. -/
def nextMark? : Parse (Option String) := ahead (next (do return markOf? (← look)))

/-- The character that follows after a gap. -/
def nextChar? : Parse (Option Char) := ahead (next (do return (← look).head?))

/-- A character of a number that is not decimal. -/
def isDigitPart (c : Char) : Bool := c.isAlphanum || c == '_'

/-- The length of digits, with underscores. -/
def digitsLength (s : List Char) : Nat := (s.takeWhile fun c => c.isDigit || c == '_').length

/-- The length of an exponent. -/
def exponentLength : List Char → Nat
  | e :: r =>
    if e == 'e' || e == 'E' then
      match r with
      | '+' :: r => let n := digitsLength r; if n == 0 then 0 else n + 2
      | '-' :: r => let n := digitsLength r; if n == 0 then 0 else n + 2
      | r => let n := digitsLength r; if n == 0 then 0 else n + 1
    else 0
  | [] => 0

/-- The length of a number at the start of a text; zero if there is none. -/
def numberLength (s : List Char) : Nat :=
  match s with
  | '0' :: x :: r =>
    if "xXbBoO".toList.contains x then 2 + (r.takeWhile isDigitPart).length else decimal s
  | _ => decimal s
where
  /-- The length of a decimal number. -/
  decimal (s : List Char) : Nat :=
    let whole := digitsLength s
    let r := s.drop whole
    let fraction := match r with
      -- a point without digits on either side is no number
      | '.' :: r =>
        let n := digitsLength r
        if whole == 0 && n == 0 then 0 else n + 1
      | _ => 0
    if whole == 0 && fraction == 0 then 0
    else
      let n := whole + fraction
      let n := n + exponentLength (s.drop n)
      -- the suffix of a large integer
      match s.drop n with
      | 'n' :: _ => n + 1
      | _ => n

/-- A number. -/
def number : Parse Piece := do
  let s ← look
  let starts := match s with
    | c :: d :: _ => c.isDigit || (c == '.' && d.isDigit)
    | [c] => c.isDigit
    | [] => false
  ensure starts
  leaf "number" true (skip (numberLength s))

/-- The length of an escape in a string. -/
def escapeLength : List Char → Nat
  | '\\' :: 'x' :: a :: b :: _ => if isHex a && isHex b then 4 else 2
  | '\\' :: 'u' :: r => (nameEscapeLength? ('\\' :: 'u' :: r)).getD 2
  | '\\' :: '\r' :: '\n' :: _ => 3
  | '\\' :: c :: r =>
    -- up to three octal digits, or any single character
    let octal (d : Char) : Bool := '0' ≤ d && d ≤ '7'
    if octal c then 1 + min 3 ((c :: r).takeWhile octal).length else 2
  | s => s.length

/-- The inside of a string up to its closing quote. -/
def stringLoop (quote : Char) : Nat → List Piece → Parse (List Piece)
  | 0, _ => fail
  | n + 1, found => do
    let s ← look
    match s with
    | [] => fail
    | c :: _ =>
      if c == quote then
        let close ← leaf (String.singleton quote) false (skip 1)
        return (close :: found).reverse
      else if c == '\\' then
        let e ← leaf "escape_sequence" true (skip (escapeLength s))
        stringLoop quote n (e :: found)
      else if c == '\n' || c == '\r' then fail
      else
        -- plain characters are one piece, as far as they go
        let k := (s.takeWhile fun c => c != quote && c != '\\' && c != '\n' && c != '\r').length
        let f ← leaf "string_fragment" true (skip k)
        stringLoop quote n (f :: found)

/-- A string. -/
def string : Parse Piece := do
  match ← look with
  | c :: _ =>
    ensure (c == Text.quote || c == Text.apostrophe)
    node "string" do
      let opening ← leaf (String.singleton c) false (skip 1)
      stringLoop c ((← left) + 1) [opening]
  | [] => fail

/-- The inside of a template up to its closing mark; `expression` reads what stands between the
braces of a substitution. -/
def templateLoop (kind : String) (expression : Parse (List Piece)) :
    Nat → List Piece → Parse (List Piece)
  | 0, _ => fail
  | n + 1, found => do
    let s ← look
    match s with
    | [] => fail
    | '\x60' :: _ =>
      let close ← leaf "\x60" false (skip 1)
      return (close :: found).reverse
    | '\\' :: _ =>
      let e ← leaf "escape_sequence" true (skip (escapeLength s))
      templateLoop kind expression n (e :: found)
    | '$' :: '\x7b' :: _ =>
      let e ← node kind (chain [one (exactly "$\x7b"), expression, one (exactly "\x7d")])
      templateLoop kind expression n (e :: found)
    | _ =>
      let f ← leaf "string_fragment" true (skip (plainLength s))
      templateLoop kind expression n (f :: found)
where
  /-- The length of plain text in a template, at least one character. -/
  plainLength (s : List Char) : Nat :=
    let rec go : Nat → List Char → Nat
      | n, [] => n
      | n, '$' :: '\x7b' :: _ => n
      | n, c :: r => if c == '\x60' || c == '\\' then n else go (n + 1) r
    go 0 s

/-- A template of some kind, whose substitutions are of another. -/
def template (kind substitution : String) (expression : Parse (List Piece)) : Parse Piece := do
  let s ← look
  ensure (s.head? == some '\x60')
  node kind do
    let opening ← leaf "\x60" false (skip 1)
    templateLoop substitution expression s.length [opening]

/-- The length of a pattern between slashes; `inClass` tells that a character class is open. -/
def patternLength : Bool → Nat → List Char → Option Nat
  | _, _, [] => none
  | inClass, n, '\\' :: c :: r =>
    if endsLine c then none else patternLength inClass (n + 2) r
  | inClass, n, c :: r =>
    if endsLine c then none
    -- a slash inside a class does not end the pattern
    else if c == '/' && !inClass then some n
    else patternLength (if c == '[' then true else if c == ']' then false else inClass) (n + 1) r

/-- A pattern between slashes, with its flags. -/
def pattern : Parse Piece := do
  match ← look with
  | '/' :: r =>
    match patternLength false 0 r with
    | none => fail
    | some k =>
      ensure (k != 0)
      node "regex" do
        let opening ← leaf "/" false (skip 1)
        let body ← leaf "regex_pattern" true (skip k)
        let closing ← leaf "/" false (skip 1)
        let flags := ((← look).takeWhile Char.isAlpha).length
        if flags == 0 then return [opening, body, closing]
        else return [opening, body, closing, ← leaf "regex_flags" true (skip flags)]
  | _ => fail

end Token

end ScriptHealth.Script
