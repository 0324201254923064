import Stencil.Number.Format
import Stencil.Script.Token.Scan
import Stencil.Script.Tree
/-!
# From tokens to syntax trees

A parser by recursive descent.  The nesting of the grammar is bounded: `grammar d` holds the parsers
of statements and expressions that may nest `d` levels deep, each built from those of `grammar
(d - 1)`, so the depth of the recursion is part of the definition.  `parseProgram` reads a script,
`parseDeclarations` also accepts functions without the word `function`, and `splitDeclarations`
pairs each statement with the part of the source that it was read from.
-/
namespace Stencil.Script

/-- How many levels of syntax may nest. -/
def maxNesting : Nat := 128

/-- Words that cannot be names. -/
def reservedWords : List String :=
  ["let", "const", "var", "function", "return", "if", "else", "while", "do", "for", "break",
    "continue", "throw", "export", "new", "typeof", "void", "true", "false", "null", "in", "class",
    "delete", "with", "yield", "try", "catch", "finally", "switch", "case", "import", "this",
    "super"]

/-- Whether a word is reserved. -/
def isReserved (word : String) : Bool :=
  reservedWords.contains word

/-- What stays the same while a text is parsed. -/
structure ParseContext where
  /-- The offset of the text in the whole source. -/
  base : Nat
  /-- Whether functions may be declared without the word `function`. -/
  shorthand : Bool
  /-- The number of tokens of the text. -/
  size : Nat

/-- A parser: it reads tokens from the front of a list. -/
abbrev Parser := ReaderT ParseContext (StateT (List Token) (Except ScriptError))

namespace Parser

/-! ### Looking at the tokens ahead -/

/-- The kind of the first token; past the end it is `eof`. -/
def kindAt (tokens : List Token) : TokenKind :=
  match tokens with
  | t :: _ => t.kind
  | [] => .eof

/-- Whether the first token is the punctuator. -/
def beginsWith (p : Punctuator) (tokens : List Token) : Bool :=
  match kindAt tokens with
  | .punctuator q => p == q
  | _ => false

/-- Whether the first token is one of the words. -/
def beginsWithWord (words : List String) (tokens : List Token) : Bool :=
  match kindAt tokens with
  | .word w => words.contains w
  | _ => false

/-- Whether no token but `eof` is left. -/
def atEnd (tokens : List Token) : Bool :=
  match kindAt tokens with
  | .eof => true
  | _ => false

/-- The tokens behind the bracket that closes the one in front, if there is one. -/
def afterClose (depth : Nat) : List Token → Option (List Token)
  | [] => none
  | t :: rest =>
    match t.kind with
    | .eof => none
    | .punctuator p =>
      if p.isOpen then afterClose (depth + 1) rest
      else if p.isClose then
        match depth with
        | 0 => none
        | 1 => some rest
        | depth + 2 => afterClose (depth + 1) rest
      else afterClose depth rest
    | _ => afterClose depth rest

/-- The remaining tokens. -/
def ahead : Parser (List Token) := get

/-- Moves over one token. -/
def skip : Parser Unit := modify fun tokens => tokens.drop 1

/-- The offset of the first token in the whole source. -/
def offset : Parser Nat := do
  let ctx ← read
  match ← get with
  | t :: _ => pure (ctx.base + t.offset)
  | [] => pure ctx.base

/-- How an unexpected token is described. -/
def describe : TokenKind → String
  | .eof => "Unexpected end of input"
  | .number x => "Unexpected number '" ++ Number.plainText x ++ "'"
  | .string _ => "Unexpected string"
  | .template _ => "Unexpected template string"
  | .word name => "Unexpected identifier '" ++ name ++ "'"
  | .punctuator p => "Unexpected token '" ++ p.spelling ++ "'"

/-- A syntax error at the first token. -/
def fail {α : Type} (message : String) : Parser α := do
  throw (.syntaxAt message (← offset))

/-- The error of a first token that does not fit. -/
def unexpected {α : Type} : Parser α := do
  fail (describe (kindAt (← ahead)))

/-- Takes a punctuator if it comes first. -/
def eat (p : Punctuator) : Parser Bool := do
  if beginsWith p (← ahead) then
    skip
    pure true
  else pure false

/-- Takes a punctuator that must come first. -/
def expect (p : Punctuator) : Parser Unit := do
  if !(← eat p) then unexpected

/-- Takes a word if it comes first. -/
def eatWord (w : String) : Parser Bool := do
  if beginsWithWord [w] (← ahead) then
    skip
    pure true
  else pure false

/-- A name that is not reserved. -/
def ident : Parser String := do
  match kindAt (← ahead) with
  | .word name =>
    if isReserved name then unexpected
    else
      skip
      pure name
  | _ => unexpected

/-- The name of a member; it may be reserved. -/
def propertyName : Parser String := do
  match kindAt (← ahead) with
  | .word name =>
    skip
    pure name
  | _ => unexpected

/-- Takes the semicolon after a statement, if there is one. -/
def endStatement : Parser Unit := do
  let _ ← eat .semicolon

/-- One more than the number of tokens of the text: a bound on loops that take a token each time. -/
def budget : Parser Nat := do
  pure ((← read).size + 1)

/-- Items with commas between them up to a closing bracket, which is left; a comma may stand before
it. -/
def commaItems {α : Type} (close : Punctuator) (item : Parser α) (done : List α) :
    Nat → Parser (List α)
  | 0 => pure done.reverse
  | fuel + 1 => do
    if beginsWith close (← ahead) then pure done.reverse
    else
      let x ← item
      if ← eat .comma then commaItems close item (x :: done) fuel
      else pure (x :: done).reverse

/-- Items between brackets, with commas between them. -/
def bracketed {α : Type} (opening closing : Punctuator) (item : Parser α) : Parser (List α) := do
  expect opening
  let items ← commaItems closing item [] (← budget)
  expect closing
  pure items

/-- The parameters of a function. -/
def params : Parser (List String) :=
  bracketed .openParen .closeParen ident

/-- Statements up to a closing brace, which is taken. -/
def statementsToBrace (statement : Parser Stmt) (done : List Stmt) : Nat → Parser (List Stmt)
  | 0 => unexpected
  | fuel + 1 => do
    if ← eat .closeBrace then pure done.reverse
    else if atEnd (← ahead) then unexpected
    else
      let s ← statement
      statementsToBrace statement (s :: done) fuel

/-- A block with its braces. -/
def block (statement : Parser Stmt) : Parser (List Stmt) := do
  expect .openBrace
  statementsToBrace statement [] (← budget)

/-! ### The parsers of one level -/

/-- The parsers of syntax one level further in. -/
structure Grammar where
  statement : Parser Stmt
  assignment : Parser Expr
  unary : Parser Expr
  /-- An expression of operators that bind at least as strongly as the given power. -/
  binary : Nat → Parser Expr

/-- The expressions behind commas. -/
def moreItems (assignment : Parser Expr) (done : List Expr) : Nat → Parser (List Expr)
  | 0 => pure done.reverse
  | fuel + 1 => do
    if ← eat .comma then
      let e ← assignment
      moreItems assignment (e :: done) fuel
    else pure done.reverse

/-- An expression: assignments with commas between them. -/
def expression (assignment : Parser Expr) : Parser Expr := do
  let first ← assignment
  if beginsWith .comma (← ahead) then
    pure (.sequence (← moreItems assignment [first] (← budget)))
  else pure first

/-- What an operator makes of its operands. -/
inductive Joint where
  | binary (op : BinaryOp)
  | logical (op : LogicalOp)
  deriving DecidableEq

/-- The expression that an operator makes of its operands. -/
def Joint.join (left right : Expr) : Joint → Expr
  | .binary op => .binary op left right
  | .logical op => .logical op left right

/-- The power with which a token binds as an operator between operands, and what it makes of
them. -/
def operator? : TokenKind → Option (Nat × Joint)
  | .punctuator .nullish => some (1, .logical .nullish)
  | .punctuator .or => some (2, .logical .or)
  | .punctuator .and => some (3, .logical .and)
  | .punctuator .equal => some (4, .binary .eq)
  | .punctuator .notEqual => some (4, .binary .notEq)
  | .punctuator .strictEqual => some (4, .binary .strictEq)
  | .punctuator .strictNotEqual => some (4, .binary .strictNotEq)
  | .punctuator .less => some (5, .binary .lt)
  | .punctuator .lessEqual => some (5, .binary .ltEq)
  | .punctuator .greater => some (5, .binary .gt)
  | .punctuator .greaterEqual => some (5, .binary .gtEq)
  | .punctuator .plus => some (6, .binary .add)
  | .punctuator .minus => some (6, .binary .sub)
  | .punctuator .times => some (7, .binary .mul)
  | .punctuator .divide => some (7, .binary .div)
  | .punctuator .remainder => some (7, .binary .rem)
  | .punctuator .power => some (8, .binary .pow)
  | .word w => if w = "in" then some (5, .binary .mem) else none
  | _ => none

/-- The least power that the right operand of an operator takes in: powers associate to the right,
everything else to the left. -/
def rightPower (power : Nat) (joint : Joint) : Nat :=
  if joint = .binary .pow then power else power + 1

/-- The operators and right operands that follow a left operand. -/
def operators (right : Nat → Parser Expr) (min : Nat) (left : Expr) : Nat → Parser Expr
  | 0 => pure left
  | fuel + 1 => do
    match operator? (kindAt (← ahead)) with
    | none => pure left
    | some (power, joint) =>
      if power < min then pure left
      else
        skip
        let r ← right (rightPower power joint)
        operators right min (joint.join left r) fuel

/-- The operator in front of an operand. -/
def unaryOp? : TokenKind → Option UnaryOp
  | .punctuator .not => some .not
  | .punctuator .minus => some .neg
  | .punctuator .plus => some .plus
  | .word w => if w = "typeof" then some .typeOf else if w = "void" then some .void else none
  | _ => none

/-- The step that a token denotes. -/
def updateOp? : TokenKind → Option UpdateOp
  | .punctuator .increment => some .inc
  | .punctuator .decrement => some .dec
  | _ => none

/-- The assignment that a token denotes. -/
def assignOp? : TokenKind → Option AssignOp
  | .punctuator .assign => some .assign
  | .punctuator .plusAssign => some .add
  | .punctuator .minusAssign => some .sub
  | .punctuator .timesAssign => some .mul
  | .punctuator .divideAssign => some .div
  | .punctuator .remainderAssign => some .rem
  | _ => none

/-- Whether an expression can be assigned to. -/
def isTarget : Expr → Bool
  | .name _ | .member .. => true
  | _ => false

/-- The arguments of a call. -/
def args (g : Grammar) : Parser (List Expr) :=
  bracketed .openParen .closeParen g.assignment

/-- The source of an interpolation, parsed on its own as one expression at the same depth; `base` is
its offset in the whole source. -/
def interpolation (g : Grammar) (base : Nat) (source : String) : Except ScriptError Expr :=
  let whole : Parser Expr := do
    let e ← expression g.assignment
    if atEnd (← ahead) then pure e else unexpected
  match tokenize source with
  | .error e => .error (e.shift base)
  | .ok tokens => (whole ⟨base, false, tokens.length⟩ tokens).map (·.1)

/-- The parts of a template literal that starts at an offset in the whole source. -/
def templateParts (g : Grammar) (start : Nat) : List Chunk → Except ScriptError (List TemplatePart)
  | [] => pure []
  | .text s :: chunks => do
    pure (.text s :: (← templateParts g start chunks))
  | .source s o :: chunks => do
    let e ← interpolation g (start + o) s
    pure (.interpolation e :: (← templateParts g start chunks))

/-- The parameters and the block of a function. -/
def functionRest (g : Grammar) (name : Option String) : Parser FunctionDef := do
  let ps ← params
  let body ← block g.statement
  pure (.mk name ps (.block body) false)

/-- One entry of an object literal. -/
def objectEntry (g : Grammar) : Parser (String × Expr) := do
  let key ← match kindAt (← ahead) with
    | .word name => pure name
    | .string s => pure s
    | .number x => pure (Number.text x)
    | _ => unexpected
  skip
  if ← eat .colon then
    pure (key, ← g.assignment)
  else if beginsWith .openParen (← ahead) then
    pure (key, .function (← functionRest g (some key)))
  else pure (key, .name key)

/-- A function expression behind the word `function`. -/
def functionExpr (g : Grammar) : Parser Expr := do
  let name ← match kindAt (← ahead) with
    | .word _ => some <$> ident
    | _ => pure none
  pure (.function (← functionRest g name))

/-- An expression that starts with a word. -/
def wordExpr (g : Grammar) (word : String) : Parser Expr := do
  match word with
  | "true" =>
    skip
    pure (.bool true)
  | "false" =>
    skip
    pure (.bool false)
  | "null" =>
    skip
    pure .null
  | "undefined" =>
    skip
    pure .undefined
  | "function" =>
    skip
    functionExpr g
  | _ =>
    if word = "async" && beginsWithWord ["function"] ((← ahead).drop 1) then
      skip
      skip
      functionExpr g
    else if isReserved word then fail ("Unexpected token '" ++ word ++ "'")
    else
      skip
      pure (.name word)

/-- A primary expression. -/
def primary (g : Grammar) : Parser Expr := do
  match kindAt (← ahead) with
  | .number x =>
    skip
    pure (.number x)
  | .string s =>
    skip
    pure (.string s)
  | .template chunks =>
    let start ← offset
    skip
    pure (.template (← templateParts g start chunks))
  | .word w => wordExpr g w
  | .punctuator .openParen =>
    skip
    let e ← expression g.assignment
    expect .closeParen
    pure e
  | .punctuator .openBracket =>
    pure (.array (← bracketed .openBracket .closeBracket g.assignment))
  | .punctuator .openBrace =>
    pure (.object (← bracketed .openBrace .closeBrace (objectEntry g)))
  | _ => unexpected

/-- The members that follow the callee of `new`. -/
def plainMembers (e : Expr) : Nat → Parser Expr
  | 0 => pure e
  | fuel + 1 => do
    if ← eat .dot then
      let name ← propertyName
      plainMembers (.member e (.string name) false) fuel
    else pure e

/-- The member in brackets whose opening bracket has been read. -/
def indexedMember (g : Grammar) (e : Expr) (optional : Bool) : Parser Expr := do
  let property ← expression g.assignment
  expect .closeBracket
  pure (.member e property optional)

/-- A member or call behind a question mark and a point that have been read. -/
def optionalLink (g : Grammar) (e : Expr) : Parser Expr := do
  if beginsWith .openParen (← ahead) then pure (.call e (← args g) true)
  else if ← eat .openBracket then indexedMember g e true
  else pure (.member e (.string (← propertyName)) true)

/-- The member or call that a token introduces behind an expression, if it introduces one. -/
def link? (g : Grammar) (e : Expr) : TokenKind → Option (Parser Expr)
  | .punctuator .dot => some do
    skip
    pure (.member e (.string (← propertyName)) false)
  | .punctuator .optionalChain => some do
    skip
    optionalLink g e
  | .punctuator .openBracket => some do
    skip
    indexedMember g e false
  | .punctuator .openParen => some do pure (.call e (← args g) false)
  | .template _ => some unexpected
  | _ => none

/-- The members and calls that follow an expression. -/
def chain (g : Grammar) (e : Expr) : Nat → Parser Expr
  | 0 => pure e
  | fuel + 1 => do
    match link? g e (kindAt (← ahead)) with
    | some link => chain g (← link) fuel
    | none => pure e

/-- The arguments of `new`, which may be left out. -/
def newArgs (g : Grammar) : Parser (List Expr) := do
  if beginsWith .openParen (← ahead) then args g else pure []

/-- What stands behind `new`. -/
def construction (g : Grammar) : Parser Expr := do
  let callee ← plainMembers (← primary g) (← budget)
  pure (.construct callee (← newArgs g))

/-- A primary expression or `new`. -/
def head (g : Grammar) : Parser Expr := do
  if ← eatWord "new" then construction g else primary g

/-- A primary expression or `new`, with the members and calls that follow. -/
def callMember (g : Grammar) : Parser Expr := do
  chain g (← head g) (← budget)

/-- An operand with a step behind it, or without. -/
def postfixed (g : Grammar) : Parser Expr := do
  let start ← offset
  let e ← callMember g
  match updateOp? (kindAt (← ahead)) with
  | none => pure e
  | some op =>
    if isTarget e then
      skip
      pure (.update op false e)
    else
      throw (.syntaxAt "Invalid left-hand side expression in postfix operation" start)

/-- An operand with a step in front of it, or with none there. -/
def prefixed (g : Grammar) : Parser Expr := do
  match updateOp? (kindAt (← ahead)) with
  | none => postfixed g
  | some op =>
    let start ← offset
    skip
    let target ← g.unary
    if isTarget target then pure (.update op true target)
    else throw (.syntaxAt "Invalid left-hand side expression in prefix operation" start)

/-- An operand with the operators in front of it. -/
def unaryBody (g : Grammar) : Parser Expr := do
  match unaryOp? (kindAt (← ahead)) with
  | some op =>
    skip
    pure (.unary op (← g.unary))
  | none =>
    if ← eatWord "await" then pure (.await (← g.unary))
    else prefixed g

/-- An expression of operators. -/
def binaryBody (g : Grammar) (min : Nat) : Parser Expr := do
  let left ← unaryBody g
  operators g.binary min left (← budget)

/-- A conditional expression, or what its test would be. -/
def conditional (g : Grammar) : Parser Expr := do
  let test ← g.binary 0
  if ← eat .question then
    let consequent ← g.assignment
    expect .colon
    let alternative ← g.assignment
    pure (.conditional test consequent alternative)
  else pure test

/-- The body of a function with an arrow, from the arrow on. -/
def arrowRest (g : Grammar) (ps : List String) : Parser Expr := do
  expect .arrow
  if beginsWith .openBrace (← ahead) then
    pure (.function (.mk none ps (.block (← block g.statement)) true))
  else pure (.function (.mk none ps (.expr (← g.assignment)) true))

/-- Whether an arrow function starts here: one name, or a list in parentheses, before an arrow. -/
def startsArrow (tokens : List Token) : Bool :=
  match kindAt tokens with
  | .word name => beginsWith .arrow (tokens.drop 1) && !isReserved name
  | .punctuator .openParen =>
    match afterClose 0 tokens with
    | some rest => beginsWith .arrow rest
    | none => false
  | _ => false

/-- The tokens behind the word `async` where it can start an arrow function, or all of them. -/
def withoutAsync (tokens : List Token) : List Token :=
  if beginsWithWord ["async"] tokens
      && (beginsWith .openParen (tokens.drop 1) || beginsWith .arrow (tokens.drop 2)) then
    tokens.drop 1
  else tokens

/-- The parameters of a function with an arrow: one name, or a list in parentheses. -/
def arrowParams : Parser (List String) := do
  match kindAt (← ahead) with
  | .word name =>
    skip
    pure [name]
  | _ => params

/-- A function with an arrow. -/
def arrowFunction (g : Grammar) : Parser Expr := do
  arrowRest g (← arrowParams)

/-- An assignment, or what its target would be. -/
def assigned (g : Grammar) : Parser Expr := do
  let start ← offset
  let target ← conditional g
  match assignOp? (kindAt (← ahead)) with
  | none => pure target
  | some op =>
    if isTarget target then
      skip
      pure (.assign op target (← g.assignment))
    else throw (.syntaxAt "Invalid left-hand side in assignment" start)

/-- A function with an arrow, an assignment, or what its target would be. -/
def assignmentBody (g : Grammar) : Parser Expr := do
  let candidate := withoutAsync (← ahead)
  if startsArrow candidate then
    set candidate
    arrowFunction g
  else assigned g

/-- The declarators of a declaration. -/
def declarators (g : Grammar) (kind : DeclKind) (done : List (String × Option Expr)) :
    Nat → Parser (List (String × Option Expr))
  | 0 => pure done.reverse
  | fuel + 1 => do
    let name ← ident
    let init ← if ← eat .assign then some <$> g.assignment else pure none
    if kind = .constDecl && init.isNone then fail "Missing initializer in const declaration"
    else if ← eat .comma then declarators g kind ((name, init) :: done) fuel
    else pure ((name, init) :: done).reverse

/-- The kind of declaration that a word introduces. -/
def declKind? : String → Option DeclKind
  | "let" => some .letDecl
  | "const" => some .constDecl
  | "var" => some .varDecl
  | _ => none

/-- A declaration whose first word comes next. -/
def declaration (g : Grammar) (kind : DeclKind) : Parser Stmt := do
  skip
  pure (.decl kind (← declarators g kind [] (← budget)))

/-- The named function behind the word `function`. -/
def namedFunction (g : Grammar) : Parser Stmt := do
  let name ← ident
  pure (.function (← functionRest g (some name)))

/-- An expression between parentheses. -/
def parenthesized (g : Grammar) : Parser Expr := do
  expect .openParen
  let e ← expression g.assignment
  expect .closeParen
  pure e

/-- An expression, unless the punctuator that ends it comes first. -/
def exprUnless (g : Grammar) (p : Punctuator) : Parser (Option Expr) := do
  if beginsWith p (← ahead) then pure none else some <$> expression g.assignment

/-- The kind of declaration that the first token introduces. -/
def declAhead? (tokens : List Token) : Option DeclKind :=
  match kindAt tokens with
  | .word w => declKind? w
  | _ => none

/-- Whether a loop over the items or keys of a value starts here. -/
def startsIteration (tokens : List Token) : Bool :=
  (declAhead? tokens).isSome
    && (match kindAt (tokens.drop 1) with
      | .word _ => true
      | _ => false)
    && beginsWithWord ["of", "in"] (tokens.drop 2)

/-- A loop over items or keys, from the word of its declaration on. -/
def iteration (g : Grammar) : Parser Stmt := do
  skip
  let name ← ident
  let overItems := beginsWithWord ["of"] (← ahead)
  skip
  let source ← expression g.assignment
  expect .closeParen
  let body ← g.statement
  pure (if overItems then .forOf name source body else .forIn name source body)

/-- What a loop with a condition starts with. -/
def loopInit (g : Grammar) : Parser (Option Stmt) := do
  let tokens ← ahead
  if beginsWith .semicolon tokens then pure none
  else match declAhead? tokens with
    | some kind => some <$> declaration g kind
    | none => (fun e => some (.expr e)) <$> expression g.assignment

/-- A loop with a condition, from what it starts with on. -/
def countedLoop (g : Grammar) : Parser Stmt := do
  let init ← loopInit g
  expect .semicolon
  let test ← exprUnless g .semicolon
  expect .semicolon
  let update ← exprUnless g .closeParen
  expect .closeParen
  let body ← g.statement
  pure (.forLoop init test update body)

/-- A loop behind the word `for`. -/
def forStatement (g : Grammar) : Parser Stmt := do
  expect .openParen
  if startsIteration (← ahead) then iteration g else countedLoop g

/-- A statement behind the word `export`. -/
def exportStatement (g : Grammar) : Parser Stmt := do
  if ← eatWord "default" then
    let value ← g.assignment
    endStatement
    pure (.exportDefault value)
  else
    let inner ← g.statement
    match inner with
    | .function _ | .decl .. => pure (.export inner)
    | _ => fail "Unexpected export"

/-- A statement that starts with no keyword. -/
def expressionStatement (g : Grammar) : Parser Stmt := do
  let e ← expression g.assignment
  endStatement
  pure (.expr e)

/-- Whether a function without the word `function` starts here: a name, a list in parentheses and an
opening brace. -/
def startsShorthand (tokens : List Token) : Bool :=
  beginsWith .openParen (tokens.drop 1)
    && (match afterClose 0 (tokens.drop 1) with
      | some rest => beginsWith .openBrace rest
      | none => false)

/-- The value of a `return`, unless the statement ends before it. -/
def returnValue (g : Grammar) : Parser (Option Expr) := do
  let tokens ← ahead
  if beginsWith .semicolon tokens || beginsWith .closeBrace tokens || atEnd tokens then pure none
  else some <$> expression g.assignment

/-- The statement that a word at its front introduces, if the word introduces one. -/
def keywordStatement? (g : Grammar) (word : String) : Option (Parser Stmt) :=
  match word with
  | "let" | "const" | "var" => some do
    let s ← declaration g ((declKind? word).getD .varDecl)
    endStatement
    pure s
  | "function" => some do
    skip
    namedFunction g
  | "return" => some do
    skip
    let value ← returnValue g
    endStatement
    pure (.return value)
  | "if" => some do
    skip
    let test ← parenthesized g
    let consequent ← g.statement
    let alternative ← if ← eatWord "else" then some <$> g.statement else pure none
    pure (.branch test consequent alternative)
  | "while" => some do
    skip
    let test ← parenthesized g
    pure (.whileLoop test (← g.statement))
  | "do" => some do
    skip
    let body ← g.statement
    if ← eatWord "while" then
      let test ← parenthesized g
      endStatement
      pure (.doLoop body test)
    else unexpected
  | "for" => some do
    skip
    forStatement g
  | "break" => some do
    skip
    endStatement
    pure .break
  | "continue" => some do
    skip
    endStatement
    pure .continue
  | "throw" => some do
    skip
    let value ← expression g.assignment
    endStatement
    pure (.throw value)
  | "export" => some do
    skip
    exportStatement g
  | _ => none

/-- A statement. -/
def statementBody (g : Grammar) : Parser Stmt := do
  let tokens ← ahead
  match kindAt tokens with
  | .punctuator .semicolon =>
    skip
    pure .empty
  | .punctuator .openBrace => pure (.block (← block g.statement))
  | .word word =>
    match keywordStatement? g word with
    | some p => p
    | none =>
      if word = "async" && beginsWithWord ["function"] (tokens.drop 1) then
        skip
        skip
        namedFunction g
      else if (← read).shorthand && startsShorthand tokens then namedFunction g
      else expressionStatement g
  | _ => expressionStatement g

/-- The error of syntax nested too deeply. -/
def tooDeep {α : Type} : Parser α :=
  fail "Expression nested too deeply"

/-- The parsers of syntax that may nest so many levels deep. -/
def grammar : Nat → Grammar
  | 0 => ⟨tooDeep, tooDeep, tooDeep, fun _ => tooDeep⟩
  | d + 1 =>
    let inner := grammar d
    ⟨statementBody inner, assignmentBody inner, unaryBody inner, binaryBody inner⟩

/-- All statements up to the end, each with the offsets of its first token and of the token behind
it. -/
def program (done : List (Stmt × Nat × Nat)) : Nat → Parser (List (Stmt × Nat × Nat))
  | 0 => pure done.reverse
  | fuel + 1 => do
    if atEnd (← ahead) then pure done.reverse
    else
      let start ← offset
      let s ← (grammar maxNesting).statement
      program ((s, start, ← offset) :: done) fuel

/-- Parses a whole text. -/
def run (shorthand : Bool) (source : String) : Except ScriptError (List (Stmt × Nat × Nat)) := do
  let tokens ← tokenize source
  let (statements, _) ← program [] (tokens.length + 1) ⟨0, shorthand, tokens.length⟩ tokens
  pure statements

end Parser

/-- Parses a script. -/
def parseProgram (source : String) : Except ScriptError (List Stmt) := do
  pure ((← Parser.run false source).map (·.1))

/-- Parses the source of a helper or a module, where functions may be declared without the word
`function`. -/
def parseDeclarations (source : String) : Except ScriptError (List Stmt) := do
  pure ((← Parser.run true source).map (·.1))

/-- A statement and the byte offsets between which it stands in the source. -/
structure Located where
  statement : Stmt
  start : Nat
  stop : Nat

/-- The part of the source that a statement was read from. -/
def Located.text? (part : Located) (source : String) : Option String :=
  String.fromUTF8? (source.toUTF8.extract part.start part.stop)

/-- Ends the last part at the end of the source. -/
def closeLast (size : Nat) : List Located → List Located
  | [] => []
  | [s] => [{ s with stop := size }]
  | s :: rest => s :: closeLast size rest

/-- Parses the source of a module and pairs each statement with its part of the source; the parts
cover everything from the first token to the end. -/
def splitDeclarations (source : String) : Except ScriptError (List Located) := do
  let statements ← Parser.run true source
  pure (closeLast source.utf8ByteSize (statements.map fun (s, start, stop) => ⟨s, start, stop⟩))

end Stencil.Script
