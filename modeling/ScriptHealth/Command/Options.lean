/-!
# Options of a command line

A command line is a list of words. A word that starts with a hyphen holds options: a long one, perhaps
with its value behind an equals sign, or short ones, of which the last may have its value behind it.
Two hyphens alone end the options. A word that is no option belongs to the command, or, if options
have to come first, ends them.

## Main definitions

* `Options.read` splits a command line into options and other words
-/

namespace ScriptHealth

/-- An option: its key, the words for it, and whether it takes a value. -/
structure OptionRule where
  key : String
  short : Option Char := none
  long : List String := []
  takesValue : Bool := false

/-- The options that were given, in their order, and the other words. -/
structure Options where
  given : List (String × String) := []
  words : List String := []

namespace Options

/-- Whether an option was given. -/
def has (o : Options) (key : String) : Bool := o.given.any (·.1 == key)

/-- The last value of an option. -/
def value? (o : Options) (key : String) : Option String :=
  (o.given.reverse.find? (·.1 == key)).map (·.2)

/-- Put an option before those that were given later. -/
def cons (key value : String) (o : Options) : Options := { o with given := (key, value) :: o.given }

/-- The short options in the letters of a word; the first that takes a value takes the letters behind
it, or the next word. The result is what was given and the words that remain. -/
def shorts (rules : List OptionRule) :
    List Char → List String → Option (List (String × String) × List String)
  | [], rest => some ([], rest)
  | c :: cs, rest => do
    let rule ← rules.find? (·.short == some c)
    if rule.takesValue then
      if cs = [] then
        match rest with
        | v :: rest => return ([(rule.key, v)], rest)
        | [] => none
      else return ([(rule.key, String.ofList cs)], rest)
    else
      let (given, rest) ← shorts rules cs rest
      return ((rule.key, "") :: given, rest)

/-- The part of a word before its first equals sign, and the part behind it, if there is one. -/
def splitEquals (word : List Char) : List Char × Option (List Char) :=
  match word.dropWhile (· != '=') with
  | '=' :: v => (word.takeWhile (· != '='), some v)
  | _ => (word, none)

/-- The options in a word that starts with a hyphen. -/
def ofWord (rules : List OptionRule) (word : String) (rest : List String) :
    Option (List (String × String) × List String) :=
  let (name, value) := splitEquals word.toList
  match rules.find? (·.long.contains (String.ofList name)) with
  | some rule =>
    if rule.takesValue then
      match value, rest with
      | some v, rest => some ([(rule.key, String.ofList v)], rest)
      | none, v :: rest => some ([(rule.key, v)], rest)
      | none, [] => none
    else if value.isSome then none
    else some ([(rule.key, "")], rest)
  | none =>
    match word.toList with
    | '-' :: '-' :: _ => none
    | _ :: letters => shorts rules letters rest
    | [] => none

/-- Split a command line. With `optionsFirst` the first word that is no option ends the options. -/
def read (rules : List OptionRule) (optionsFirst : Bool) : Nat → List String → Option Options
  | 0, _ => none
  | _ + 1, [] => some {}
  | n + 1, word :: rest =>
    if word = "--" then some { words := rest }
    else if word.toList.head? = some '-' ∧ word ≠ "-" then do
      let (given, rest) ← ofWord rules word rest
      let o ← read rules optionsFirst n rest
      return { o with given := given ++ o.given }
    else if optionsFirst then some { words := word :: rest }
    else do
      let o ← read rules optionsFirst n rest
      return { o with words := word :: o.words }

end Options

end ScriptHealth
