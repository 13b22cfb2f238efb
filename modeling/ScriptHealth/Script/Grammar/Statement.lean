import ScriptHealth.Script.Grammar.Expression

/-!
# Statements

Declarations, imports and exports, control flow, and the declarations of typed scripts.
-/

namespace ScriptHealth.Script.Grammar

open Parse Token

/-! ### Variables -/

/-- A declared variable with its type and value. -/
def declarator (d : Dialect) (r : Rules) (spot : Spot) : Parse Piece :=
  node "variable_declarator" (chain [
    oneInto "name" r.target,
    if hasTypes d then opt (one (mark "!")) else pure [],
    if hasTypes d then opt (oneInto "type" (typeMark r)) else pure [],
    opt (chain [one (mark "="), oneInto "value" (r.expression spot)])])

/-- Variables after their keyword. -/
def variableList (d : Dialect) (r : Rules) (spot : Spot) (ending : Parse (List Piece)) :
    Parse Piece := do
  let w := nameOf (← look)
  ensure (w == "var" || w == "let" || w == "const")
  node (if w == "var" then "variable_declaration" else "lexical_declaration") (chain [
    oneInto "kind" (word w), one (declarator d r spot),
    many (chain [comma, one (declarator d r spot)]), ending])

/-! ### Imports and exports -/

/-- A name that a module exports: a name, a word or a string. -/
def exportedName : Parse Piece := either string (anyName "identifier")

/-- The source of an import. -/
def fromClause : Parse (List Piece) :=
  chain [one (word "from"), oneInto "source" string]

/-- The attributes of an import. -/
def importAttribute (d : Dialect) (r : Rules) : Parse Piece :=
  node "import_attribute" (chain [one (either (word "with") (word "assert")), one (object d r)])

/-- A word that stands for a type, when a name follows it. -/
def typeOnly (d : Dialect) : Parse (List Piece) := do
  ensure (hasTypes d)
  let w := nameOf (← look)
  ensure (w == "type" || w == "typeof")
  let m ← word w
  let follows ← nextWord
  let c ← nextChar?
  -- otherwise the word is itself the name that is bound
  ensure ((follows != "" && follows != "from") || c == some '\x7b' || c == some '*')
  return [m]

/-- A word that stands for a type inside braces, when a name other than `as` follows it. -/
def typeOnlyItem (d : Dialect) : Parse (List Piece) := do
  ensure (hasTypes d)
  let w := nameOf (← look)
  ensure (w == "type" || w == "typeof")
  let m ← word w
  let follows ← nextWord
  let c ← nextChar?
  ensure ((follows != "" && follows != "as") || c == some Text.quote || c == some Text.apostrophe)
  return [m]

/-- A name in the braces of an import or an export, which may be renamed. -/
def importedItem (d : Dialect) (kind : String) : Parse Piece :=
  node kind (chain [
    opt (typeOnlyItem d), oneInto "name" exportedName,
    opt (chain [one (word "as"), oneInto "alias" exportedName])])

/-- All names of a module under one name. -/
def namespaceImport : Parse Piece :=
  node "namespace_import" (chain [one (mark "*"), one (word "as"), one (name "identifier")])

/-- Imported names in braces. -/
def namedImports (d : Dialect) : Parse Piece :=
  node "named_imports" (listing "\x7b" "\x7d" (one (importedItem d "import_specifier")))

/-- What an import statement binds. -/
def importClause (d : Dialect) : Parse Piece :=
  node "import_clause" (firstOf [
    one namespaceImport, one (namedImports d),
    chain [one (name "identifier"),
      opt (chain [comma, one (either namespaceImport (namedImports d))])]])

/-- A required module under a name. -/
def importRequire : Parse Piece :=
  node "import_require_clause" (chain [
    one (name "identifier"), one (mark "="), one (word "require"), one (mark "("),
    oneInto "source" string, one (mark ")")])

/-- An import statement. -/
def importStatement (d : Dialect) (r : Rules) : Parse Piece :=
  firstOf [
    node "import_statement" (chain [
      one (word "import"), opt (typeOnly d),
      firstOf [
        oneInto "source" string,
        do
          ensure (hasTypes d)
          one importRequire,
        chain [one (importClause d), fromClause]],
      opt (one (importAttribute d r)), semicolon]),
    do
      ensure (hasTypes d)
      node "import_alias" (chain [
        one (word "import"), one (name "identifier"), one (mark "="),
        one (do
          let first ← name "identifier"
          dottedLoop "nested_identifier" "property_identifier" (← left) first),
        semicolon])]

/-- Exported names in braces. -/
def exportClause (d : Dialect) : Parse Piece :=
  node "export_clause" (listing "\x7b" "\x7d" (one (importedItem d "export_specifier")))

/-- Whether a declaration follows the words `export default`. -/
def startsDeclaration (d : Dialect) (w : String) : Bool :=
  w == "function" || w == "class" || w == "async" ||
    (hasTypes d && (w == "abstract" || w == "interface"))

/-- An export statement; `declaration` reads what is exported. -/
def exportStatement (d : Dialect) (r : Rules) (declaration : Parse Piece) : Parse Piece :=
  node "export_statement" (chain [
    many (oneInto "decorator" (decorator r)),
    one (word "export"),
    firstOf [
      chain [one (mark "*"), fromClause, opt (one (importAttribute d r)), semicolon],
      chain [
        one (node "namespace_export" (chain [one (mark "*"), one (word "as"), one exportedName])),
        fromClause, opt (one (importAttribute d r)), semicolon],
      chain [
        opt (do
          ensure (hasTypes d)
          let m ← word "type"
          let c ← nextChar?
          ensure (c == some '\x7b' || c == some '*')
          return [m]),
        either (one (exportClause d))
          (either
            (one (node "namespace_export" (chain [one (mark "*"), one (word "as"), one exportedName])))
            (one (mark "*"))),
        opt fromClause, opt (one (importAttribute d r)), semicolon],
      chain [
        one (word "default"),
        either
          (do
            -- what looks like a declaration is one, and everything else is a value
            ensure (startsDeclaration d (nameOf (← look)) || (← look).head? == some '@')
            oneInto "declaration" declaration)
          (chain [oneInto "value" (r.expression {}), semicolon])],
      (do
        ensure (hasTypes d)
        firstOf [
          chain [one (mark "="), one (r.expression {}), semicolon],
          chain [one (word "as"), one (word "namespace"), one (name "identifier"), semicolon]]),
      oneInto "declaration" declaration]])

/-! ### Declarations of typed scripts -/

/-- A word that starts a declaration, when a name follows it on the same line. -/
def declaringWord (w : String) : Parse Piece := do
  let m ← word w
  ensure !(← lineEndsBefore)
  return m

/-- An interface. -/
def interfaceDeclaration (r : Rules) : Parse Piece :=
  node "interface_declaration" (chain [
    one (declaringWord "interface"), oneInto "name" (name "type_identifier"),
    opt (oneInto "type_parameters" (typeParameters r)),
    opt (one (node "extends_type_clause" (chain [
      one (word "extends"), oneInto "type" r.typed, many (chain [comma, oneInto "type" r.typed])]))),
    oneInto "body" (objectType "interface_body" r)])

/-- A named type. -/
def typeAlias (r : Rules) : Parse Piece :=
  node "type_alias_declaration" (chain [
    one (declaringWord "type"), oneInto "name" (name "type_identifier"),
    opt (oneInto "type_parameters" (typeParameters r)), one (mark "="),
    oneInto "value" r.typed, semicolon])

/-- An enumeration. -/
def enumDeclaration (r : Rules) : Parse Piece :=
  node "enum_declaration" (chain [
    opt (one (word "const")), one (declaringWord "enum"), oneInto "name" (name "identifier"),
    oneInto "body" (node "enum_body" (listing "\x7b" "\x7d" (do
      let n ← propertyName r
      -- only a member with a value gets a node of its own
      let value ← opt (after (chain [one (mark "="), oneInto "value" (r.expression {})]))
      if value.isEmpty then return [n.into "name"]
      else return [.around "enum_assignment" (n.into "name") value])))])

/-- A module or a namespace. -/
def moduleDeclaration (r : Rules) : Parse Piece := do
  let w := nameOf (← look)
  ensure (w == "module" || w == "namespace")
  node (if w == "module" then "module" else "internal_module") (chain [
    one (declaringWord w),
    oneInto "name" (either string (do
      let first ← name "identifier"
      dottedLoop "nested_identifier" "property_identifier" (← left) first)),
    opt (oneInto "body" (block r)), semicolon])

/-- A namespace is an expression that is used as a statement. -/
def moduleStatement (r : Rules) : Parse Piece := do
  let m ← moduleDeclaration r
  if m.kind == "internal_module" then return .around "expression_statement" m [] else return m

/-- A class, abstract or not. -/
def classDeclaration (d : Dialect) (r : Rules) : Parse Piece :=
  either (classNode d "class_declaration" r (r.unary {}))
    (do
      ensure (hasTypes d)
      classNode d "abstract_class_declaration" r (r.unary {}))

/-- A function declaration. A signature ends like a statement. -/
def functionDeclaration (d : Dialect) (r : Rules) : Parse Piece := do
  let f ← function d "function_declaration" "generator_function_declaration" r
  if f.kind == "function_signature" then
    let ending ← after semicolon
    -- the semicolon becomes a part of the signature, which grows by it
    if ending.isEmpty then return f
    else
      let e ← get
      return .mk f.kind none true f.start e.offset f.row (f.children ++ ending)
  else return f

/-- A declaration, without imports and exports. -/
def declaration (d : Dialect) (r : Rules) : Parse Piece :=
  firstOf ([functionDeclaration d r, classDeclaration d r] ++
    (if hasTypes d then
      [enumDeclaration r, interfaceDeclaration r, typeAlias r, moduleDeclaration r] else []) ++
    [variableList d r {} semicolon])

/-- A declaration of something that exists elsewhere. -/
def ambientDeclaration (d : Dialect) (r : Rules) : Parse Piece :=
  node "ambient_declaration" (chain [
    one (declaringWord "declare"),
    firstOf [
      chain [one (word "global"), one (block r)],
      one (declaration d r)]])

/-! ### Control flow -/

/-- A statement that ends with an optional semicolon. -/
def ended (kind : String) (parts : List (Parse (List Piece))) : Parse Piece :=
  node kind (chain (parts ++ [semicolon]))

/-- A jump with its label, or with nothing when a line ends behind its keyword. -/
def jump (kind w : String) : Parse Piece := do
  if ← ahead (do skip w.length; lineEndsBefore) then ended kind [one (word w)]
  else ended kind [one (word w), opt (oneInto "label" (name "statement_identifier"))]

/-- A keyword with expressions, or with nothing when a line ends behind the keyword. -/
def result (kind w : String) (r : Rules) : Parse Piece := do
  if ← ahead (do skip w.length; lineEndsBefore) then ended kind [one (word w)]
  else ended kind [one (word w), opt (one (r.expressions {}))]

/-- A branch. -/
def ifStatement (r : Rules) : Parse Piece :=
  node "if_statement" (chain [
    one (word "if"), oneInto "condition" (parenthesized r), oneInto "consequence" r.statement,
    opt (oneInto "alternative" (node "else_clause" (chain [one (word "else"), one r.statement])))])

/-- A case of a switch, with its statements. -/
def switchCase (r : Rules) : Parse Piece := do
  let statements := many (do
    let w := nameOf (← look)
    ensure (w != "case" && w != "default")
    statementOrSkipped r)
  either
    (node "switch_case" (chain [
      one (word "case"), oneInto "value" (r.expressions {}), one (mark ":"), statements]))
    (node "switch_default" (chain [one (word "default"), one (mark ":"), statements]))

/-- A switch. -/
def switchStatement (r : Rules) : Parse Piece :=
  node "switch_statement" (chain [
    one (word "switch"), oneInto "value" (parenthesized r),
    oneInto "body" (node "switch_body" (chain [
      one (mark "\x7b"), many (one (switchCase r)), one (mark "\x7d")]))])

/-- The word between a loop variable and what it runs through. -/
def loopWord : Parse Piece := either (word "of") (word "in")

/-- The head of a loop through the items or keys of a value. -/
def forInHead (d : Dialect) (r : Rules) : Parse (List Piece) :=
  chain [
    one (mark "("),
    either
      (do
        let w := nameOf (← look)
        ensure (w == "var" || w == "let" || w == "const")
        chain [oneInto "kind" (word w), oneInto "left" r.target,
          opt (chain [one (mark "="), oneInto "value" (r.expression { noIn := true })]),
          oneInto "operator" loopWord])
      (do
        let left ← operand d r
        let more ← after (oneInto "operator" loopWord)
        return (asTarget left).into "left" :: more),
    oneInto "right" (r.expressions {}), one (mark ")")]

/-- The head of a loop with a condition and a step. -/
def forHead (d : Dialect) (r : Rules) : Parse (List Piece) :=
  chain [
    one (mark "("),
    firstOf [
      oneInto "initializer" (variableList d r { noIn := true } (one (mark ";"))),
      oneInto "initializer" (node "empty_statement" (one (mark ";"))),
      chain [oneInto "initializer" (r.expressions { noIn := true }), one (mark ";")]],
    either (oneInto "condition" (node "empty_statement" (one (mark ";"))))
      (chain [oneInto "condition" (r.expressions {}), one (mark ";")]),
    opt (oneInto "increment" (r.expressions {})), one (mark ")")]

/-- A loop with a head. -/
def forStatement (d : Dialect) (r : Rules) : Parse Piece :=
  either
    (node "for_in_statement" (chain [
      one (word "for"), opt (one (word "await")), forInHead d r, oneInto "body" r.statement]))
    (node "for_statement" (chain [
      one (word "for"), forHead d r, oneInto "body" r.statement]))

/-- A loop that tests first. -/
def whileStatement (r : Rules) : Parse Piece :=
  node "while_statement" (chain [
    one (word "while"), oneInto "condition" (parenthesized r), oneInto "body" r.statement])

/-- A loop that tests last. -/
def doStatement (r : Rules) : Parse Piece :=
  ended "do_statement" [
    one (word "do"), oneInto "body" r.statement, one (word "while"),
    oneInto "condition" (parenthesized r)]

/-- Statements whose failures are caught. -/
def tryStatement (d : Dialect) (r : Rules) : Parse Piece :=
  node "try_statement" (chain [
    one (word "try"), oneInto "body" (block r),
    opt (oneInto "handler" (node "catch_clause" (chain [
      one (word "catch"),
      opt (chain [one (mark "("), oneInto "parameter" r.target,
        if hasTypes d then opt (oneInto "type" (typeMark r)) else pure [], one (mark ")")]),
      oneInto "body" (block r)]))),
    opt (oneInto "finalizer" (node "finally_clause" (chain [
      one (word "finally"), oneInto "body" (block r)])))])

/-- Statements with an object in scope. -/
def withStatement (r : Rules) : Parse Piece :=
  node "with_statement" (chain [
    one (word "with"), oneInto "object" (parenthesized r), oneInto "body" r.statement])

/-- A statement with a label. -/
def labeled (r : Rules) : Parse Piece :=
  node "labeled_statement" (chain [
    oneInto "label" (name "statement_identifier"), one (mark ":"), oneInto "body" r.statement])

/-- Expressions as a statement. -/
def expressionStatement (r : Rules) : Parse Piece :=
  ended "expression_statement" [one (r.expressions {})]

/-! ### Statements -/

/-- The statement that a keyword starts, if any. -/
def keywordStatement? (d : Dialect) (r : Rules) (w : String) : Option (Parse Piece) :=
  match w with
  | "if" => some (ifStatement r)
  | "for" => some (forStatement d r)
  | "while" => some (whileStatement r)
  | "do" => some (doStatement r)
  | "switch" => some (switchStatement r)
  | "try" => some (tryStatement d r)
  | "with" => some (withStatement r)
  | "break" => some (jump "break_statement" "break")
  | "continue" => some (jump "continue_statement" "continue")
  | "return" => some (result "return_statement" "return" r)
  | "throw" => some (result "throw_statement" "throw" r)
  | "debugger" => some (ended "debugger_statement" [one (word "debugger")])
  | "function" => some (functionDeclaration d r)
  | "class" => some (classDeclaration d r)
  | "var" | "let" | "const" =>
    some (either (variableList d r {} semicolon)
      (either (do ensure (hasTypes d); enumDeclaration r) (expressionStatement r)))
  | "import" => some (either (importStatement d r) (expressionStatement r))
  | "export" => some (exportStatement d r (either (declaration d r)
      (either (do ensure (hasTypes d); ambientDeclaration d r)
        (do ensure (hasTypes d); importStatement d r))))
  | "async" => some (either (functionDeclaration d r)
      (either (expressionStatement r) (labeled r)))
  | _ => none

/-- The statement that a word starts in a typed script, if any. -/
def typedStatement? (d : Dialect) (r : Rules) (w : String) : Option (Parse Piece) :=
  match w with
  | "interface" => some (interfaceDeclaration r)
  | "type" => some (typeAlias r)
  | "enum" => some (enumDeclaration r)
  | "namespace" | "module" => some (moduleStatement r)
  | "abstract" => some (classDeclaration d r)
  | "declare" => some (ambientDeclaration d r)
  | _ => none

/-- A statement that starts with a name: a label, a typed declaration or expressions. -/
def nameStatement (d : Dialect) (r : Rules) (w : String) : Parse Piece := do
  -- a colon behind a name that is not reserved makes it a label
  let isLabel ← ahead (do
    skip (nameLength (← look))
    return (← nextMark?) == some ":")
  if isLabel && !reserved.contains w then labeled r
  else
    match if hasTypes d then typedStatement? d r w else none with
    | some p => either p (expressionStatement r)
    | none => expressionStatement r

/-- A statement. -/
def statement (d : Dialect) (r : Rules) : Parse Piece := do
  let s ← look
  match s with
  | [] => fail
  | '\x7b' :: _ => block r
  | ';' :: _ => node "empty_statement" (one (mark ";"))
  | '@' :: _ => firstOf [
      exportStatement d r (either (declaration d r) (expressionStatement r)),
      classDeclaration d r, expressionStatement r]
  | _ =>
    let w := nameOf s
    if w == "" then expressionStatement r
    else
      match keywordStatement? d r w with
      | some p => p
      | none => nameStatement d r w

end ScriptHealth.Script.Grammar
