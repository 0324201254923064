import Stencil.Script.Parse

/-! # A parser that moves a cursor

A parser takes tokens off the front of a list, and the depth to which it may nest is part of it.  A
**stepper** parses in the same way by moving a cursor: it counts the tokens in front of the next one
and the levels that are open.  What a parser leaves to its lists and to its level is written out
here.  A token that does not fit as a name or a key is passed first and then given back, a list of
parameters that no arrow follows sends the cursor back to where it was, each level is entered and
left, and an error leaves the cursor where it stands.

Nothing stops a stepper at either end of the tokens, and its loops turn as long as there is
something to do.  It **crashes** where it moves the cursor over more tokens than there are, gives
back a token or leaves a level without having taken one, where a loop has turned more often than
there are tokens in the text, and where it runs out of the levels on which it was built.
-/
namespace Stencil.Script

namespace Stepper

/-- A text, and what stays the same while it is parsed. -/
structure Text where
  tokens : List Token
  /-- The offset of the text in the whole source. -/
  base : Nat
  /-- Whether functions may be declared without the word `function`. -/
  shorthand : Bool

/-- What changes while a text is parsed. -/
structure Cursor where
  /-- The number of tokens in front of the next one. -/
  pos : Nat
  /-- The number of open levels. -/
  depth : Nat

end Stepper

/-- A parser that moves a cursor over a text; it may crash. -/
abbrev Stepper :=
  ReaderT Stepper.Text (ExceptT ScriptError (StateT Stepper.Cursor Option))

namespace Stepper
open Stencil.Script.Parser (kindAt beginsWith beginsWithWord atEnd describe operator? rightPower
  unaryOp? updateOp? assignOp? isTarget startsArrow startsIteration startsShorthand declKind?
  declAhead?)

variable {α : Type}

/-! ## Moving the cursor -/

/-- The end of a stepper that cannot go on. -/
def crash : Stepper α :=
  fun _ _ => none

/-- The remaining tokens. -/
def ahead : Stepper (List Token) := do
  pure ((← read).tokens.drop (← get).pos)

/-- Moves over a token, whether or not there is one. -/
def bump : Stepper Unit := do
  if (← get).pos < (← read).tokens.length then
    modify fun c => { c with pos := c.pos + 1 }
  else crash

/-- Moves over a token if there is one, and gives its kind. -/
def advance : Stepper TokenKind := do
  let kind := kindAt (← ahead)
  if (← get).pos < (← read).tokens.length then bump
  pure kind

/-- Gives back a token. -/
def giveBack : Stepper Unit := do
  match (← get).pos with
  | 0 => crash
  | pos + 1 => modify fun c => { c with pos }

/-- The offset in the whole source of the first of the remaining tokens.  Where none remains it is
that of the last one. -/
def Text.offsetAt (text : Text) : List Token → Nat
  | t :: _ => text.base + t.offset
  | [] => text.base + (text.tokens.getLast?.map Token.offset).getD 0

/-- The offset of the next token in the whole source. -/
def offset : Stepper Nat := do
  pure ((← read).offsetAt (← ahead))

/-- A syntax error at the next token. -/
def fail (message : String) : Stepper α := do
  throw (.syntaxAt message (← offset))

/-- The error of a token that does not fit. -/
def unexpected : Stepper α := do
  fail (describe (kindAt (← ahead)))

/-- Opens a level.  If too many are open the level stays open. -/
def enter : Stepper Unit := do
  modify fun c => { c with depth := c.depth + 1 }
  if maxNesting < (← get).depth then fail "Expression nested too deeply"

/-- Closes a level. -/
def leave : Stepper Unit := do
  match (← get).depth with
  | 0 => crash
  | depth + 1 => modify fun c => { c with depth }

/-- One level further in; the level is closed after a failure as well. -/
def nested (p : Stepper α) : Stepper α := do
  enter
  let result ← observing p
  leave
  ofExcept result

/-- What a stepper makes of another text at the same depth.  It has a cursor of its own there. -/
def onText (text : Text) (p : Stepper α) : Stepper α := fun _ c =>
  (p text ⟨0, c.depth⟩).map fun (result, _) => (result, c)

/-! ## Single tokens -/

/-- Takes a punctuator if it comes first. -/
def eat (p : Punctuator) : Stepper Bool := do
  if beginsWith p (← ahead) then
    bump
    pure true
  else pure false

/-- Takes a punctuator that must come first. -/
def expect (p : Punctuator) : Stepper Unit := do
  if !(← eat p) then unexpected

/-- Takes a word if it comes first. -/
def eatWord (w : String) : Stepper Bool := do
  if beginsWithWord [w] (← ahead) then
    bump
    pure true
  else pure false

/-- A name that is not reserved. -/
def ident : Stepper String := do
  match kindAt (← ahead) with
  | .word name =>
    if isReserved name then unexpected
    else
      bump
      pure name
  | _ => unexpected

/-- Takes the next token for what it stands for, and gives it back if it does not fit. -/
def taking (fitting? : TokenKind → Option α) : Stepper α := do
  match fitting? (← advance) with
  | some a => pure a
  | none =>
    giveBack
    unexpected

/-- The name that a token is. -/
def name? : TokenKind → Option String
  | .word name => some name
  | _ => none

/-- The key that a token stands for. -/
def key? : TokenKind → Option String
  | .word name => some name
  | .string s => some s
  | .number x => some (Number.text x)
  | _ => none

/-- The name of a member; it may be reserved. -/
def propertyName : Stepper String :=
  taking name?

/-- Takes the semicolon after a statement, if there is one. -/
def endStatement : Stepper Unit := do
  let _ ← eat .semicolon

/-! ## Loops -/

/-- How often a loop may turn. -/
def budget : Stepper Nat := do
  pure ((← read).tokens.length + 1)

/-- Items with commas between them up to a closing bracket, which is left. -/
def commaItems (close : Punctuator) (item : Stepper α) (done : List α) : Nat → Stepper (List α)
  | 0 => crash
  | fuel + 1 => do
    if beginsWith close (← ahead) then pure done.reverse
    else
      let x ← item
      if ← eat .comma then commaItems close item (x :: done) fuel
      else pure (x :: done).reverse

/-- Items between brackets, with commas between them. -/
def bracketed (opening closing : Punctuator) (item : Stepper α) : Stepper (List α) := do
  expect opening
  let items ← commaItems closing item [] (← budget)
  expect closing
  pure items

/-- The parameters of a function. -/
def params : Stepper (List String) :=
  bracketed .openParen .closeParen ident

/-- Statements up to a closing brace, which is taken. -/
def statementsToBrace (statement : Stepper Stmt) (done : List Stmt) : Nat → Stepper (List Stmt)
  | 0 => crash
  | fuel + 1 => do
    if ← eat .closeBrace then pure done.reverse
    else if atEnd (← ahead) then unexpected
    else
      let s ← statement
      statementsToBrace statement (s :: done) fuel

/-- A block with its braces. -/
def block (statement : Stepper Stmt) : Stepper (List Stmt) := do
  expect .openBrace
  statementsToBrace statement [] (← budget)

/-- The expressions behind commas. -/
def moreItems (assignment : Stepper Expr) (done : List Expr) : Nat → Stepper (List Expr)
  | 0 => crash
  | fuel + 1 => do
    if ← eat .comma then
      let e ← assignment
      moreItems assignment (e :: done) fuel
    else pure done.reverse

/-- An expression: assignments with commas between them. -/
def expression (assignment : Stepper Expr) : Stepper Expr := do
  let first ← assignment
  if beginsWith .comma (← ahead) then
    pure (.sequence (← moreItems assignment [first] (← budget)))
  else pure first

/-- The operators and right operands that follow a left operand. -/
def operators (right : Nat → Stepper Expr) (min : Nat) (left : Expr) : Nat → Stepper Expr
  | 0 => crash
  | fuel + 1 => do
    match operator? (kindAt (← ahead)) with
    | none => pure left
    | some (power, joint) =>
      if power < min then pure left
      else
        bump
        let r ← right (rightPower power joint)
        operators right min (joint.join left r) fuel

/-- The members that follow the callee of `new`. -/
def plainMembers (e : Expr) : Nat → Stepper Expr
  | 0 => crash
  | fuel + 1 => do
    if ← eat .dot then
      let name ← propertyName
      plainMembers (.member e (.string name) false) fuel
    else pure e

/-! ## The steppers of one level -/

/-- The steppers of a level. -/
structure Level where
  statement : Stepper Stmt
  assignment : Stepper Expr
  unary : Stepper Expr
  binary : Nat → Stepper Expr

variable (l : Level)

/-- The arguments of a call. -/
def args : Stepper (List Expr) :=
  bracketed .openParen .closeParen l.assignment

/-- The source of an interpolation, split into tokens and parsed by a cursor of its own. -/
def interpolation (base : Nat) (source : String) : Stepper Expr :=
  match tokenize source with
  | .error e => throw (e.shift base)
  | .ok tokens => onText ⟨tokens, base, false⟩ do
    let e ← expression l.assignment
    if atEnd (← ahead) then pure e else unexpected

/-- The parts of a template literal that starts at an offset in the whole source. -/
def templateParts (start : Nat) : List Chunk → Stepper (List TemplatePart)
  | [] => pure []
  | .text s :: chunks => do
    pure (.text s :: (← templateParts start chunks))
  | .source s o :: chunks => do
    let e ← interpolation l (start + o) s
    pure (.interpolation e :: (← templateParts start chunks))

/-- The parameters and the block of a function. -/
def functionRest (name : Option String) : Stepper FunctionDef := do
  let ps ← params
  let body ← block l.statement
  pure (.mk name ps (.block body) false)

/-- One entry of an object literal. -/
def objectEntry : Stepper (String × Expr) := do
  let key ← taking key?
  if ← eat .colon then
    pure (key, ← l.assignment)
  else if beginsWith .openParen (← ahead) then
    pure (key, .function (← functionRest l (some key)))
  else pure (key, .name key)

/-- A function expression behind the word `function`. -/
def functionExpr : Stepper Expr := do
  let name ← match kindAt (← ahead) with
    | .word _ => some <$> ident
    | _ => pure none
  pure (.function (← functionRest l name))

/-- An expression that starts with a word. -/
def wordExpr (word : String) : Stepper Expr := do
  match word with
  | "true" =>
    bump
    pure (.bool true)
  | "false" =>
    bump
    pure (.bool false)
  | "null" =>
    bump
    pure .null
  | "undefined" =>
    bump
    pure .undefined
  | "function" =>
    bump
    functionExpr l
  | _ =>
    if word = "async" && beginsWithWord ["function"] ((← ahead).drop 1) then
      bump
      bump
      functionExpr l
    else if isReserved word then fail ("Unexpected token '" ++ word ++ "'")
    else
      bump
      pure (.name word)

/-- A primary expression. -/
def primary : Stepper Expr := do
  match kindAt (← ahead) with
  | .number x =>
    bump
    pure (.number x)
  | .string s =>
    bump
    pure (.string s)
  | .template chunks =>
    let start ← offset
    bump
    pure (.template (← templateParts l start chunks))
  | .word w => wordExpr l w
  | .punctuator .openParen =>
    bump
    let e ← expression l.assignment
    expect .closeParen
    pure e
  | .punctuator .openBracket =>
    pure (.array (← bracketed .openBracket .closeBracket l.assignment))
  | .punctuator .openBrace =>
    pure (.object (← bracketed .openBrace .closeBrace (objectEntry l)))
  | _ => unexpected

/-- The member in brackets whose opening bracket has been read. -/
def indexedMember (e : Expr) (optional : Bool) : Stepper Expr := do
  let property ← expression l.assignment
  expect .closeBracket
  pure (.member e property optional)

/-- A member or call behind a question mark and a point that have been read. -/
def optionalLink (e : Expr) : Stepper Expr := do
  if beginsWith .openParen (← ahead) then pure (.call e (← args l) true)
  else if ← eat .openBracket then indexedMember l e true
  else pure (.member e (.string (← propertyName)) true)

/-- The member or call that a token introduces behind an expression, if it introduces one. -/
def link? (e : Expr) : TokenKind → Option (Stepper Expr)
  | .punctuator .dot => some do
    bump
    pure (.member e (.string (← propertyName)) false)
  | .punctuator .optionalChain => some do
    bump
    optionalLink l e
  | .punctuator .openBracket => some do
    bump
    indexedMember l e false
  | .punctuator .openParen => some do pure (.call e (← args l) false)
  | .template _ => some unexpected
  | _ => none

/-- The members and calls that follow an expression. -/
def chain (e : Expr) : Nat → Stepper Expr
  | 0 => crash
  | fuel + 1 => do
    match link? l e (kindAt (← ahead)) with
    | some link => chain (← link) fuel
    | none => pure e

/-- The arguments of `new`, which may be left out. -/
def newArgs : Stepper (List Expr) := do
  if beginsWith .openParen (← ahead) then args l else pure []

/-- What stands behind `new`. -/
def construction : Stepper Expr := do
  let callee ← plainMembers (← primary l) (← budget)
  pure (.construct callee (← newArgs l))

/-- A primary expression or `new`. -/
def head : Stepper Expr := do
  if ← eatWord "new" then construction l else primary l

/-- A primary expression or `new`, with the members and calls that follow. -/
def callMember : Stepper Expr := do
  chain l (← head l) (← budget)

/-- An operand with a step behind it, or without. -/
def postfixed : Stepper Expr := do
  let start ← offset
  let e ← callMember l
  match updateOp? (kindAt (← ahead)) with
  | none => pure e
  | some op =>
    if isTarget e then
      bump
      pure (.update op false e)
    else
      throw (.syntaxAt "Invalid left-hand side expression in postfix operation" start)

/-- An operand with a step in front of it, or with none there. -/
def prefixed : Stepper Expr := do
  match updateOp? (kindAt (← ahead)) with
  | none => postfixed l
  | some op =>
    let start ← offset
    bump
    let target ← l.unary
    if isTarget target then pure (.update op true target)
    else throw (.syntaxAt "Invalid left-hand side expression in prefix operation" start)

/-- An operand with the operators in front of it. -/
def unaryBody : Stepper Expr := do
  match unaryOp? (kindAt (← ahead)) with
  | some op =>
    bump
    pure (.unary op (← l.unary))
  | none =>
    if ← eatWord "await" then pure (.await (← l.unary))
    else prefixed l

/-- An expression of operators.  Its operands and the right sides of its operators are each one
level further in. -/
def binaryBody (min : Nat) : Stepper Expr := do
  let left ← nested (unaryBody l)
  operators (fun power => nested (l.binary power)) min left (← budget)

/-- A conditional expression, or what its test would be. -/
def conditional : Stepper Expr := do
  let test ← l.binary 0
  if ← eat .question then
    let consequent ← l.assignment
    expect .colon
    let alternative ← l.assignment
    pure (.conditional test consequent alternative)
  else pure test

/-- The body of a function with an arrow, from the arrow on. -/
def arrowRest (ps : List String) : Stepper Expr := do
  expect .arrow
  if beginsWith .openBrace (← ahead) then
    pure (.function (.mk none ps (.block (← block l.statement)) true))
  else pure (.function (.mk none ps (.expr (← l.assignment)) true))

/-- The parameters of a function with an arrow: one name, or a list in parentheses. -/
def arrowParams : Stepper (List String) := do
  match kindAt (← ahead) with
  | .word name =>
    bump
    pure [name]
  | _ => params

/-- A function with an arrow. -/
def arrowFunction : Stepper Expr := do
  arrowRest l (← arrowParams)

/-- Moves over the word `async` where it can start an arrow function. -/
def skipAsync : Stepper Unit := do
  let tokens ← ahead
  if beginsWithWord ["async"] tokens
      && (beginsWith .openParen (tokens.drop 1) || beginsWith .arrow (tokens.drop 2)) then
    bump

/-- A function with an arrow, if one starts here; otherwise the cursor goes back to where it
was. -/
def tryArrow : Stepper (Option Expr) := do
  let saved ← get
  skipAsync
  if startsArrow (← ahead) then some <$> arrowFunction l
  else
    set saved
    pure none

/-- An assignment, or what its target would be. -/
def assigned : Stepper Expr := do
  let start ← offset
  let target ← conditional l
  match assignOp? (kindAt (← ahead)) with
  | none => pure target
  | some op =>
    if isTarget target then
      bump
      pure (.assign op target (← l.assignment))
    else throw (.syntaxAt "Invalid left-hand side in assignment" start)

/-- A function with an arrow, an assignment, or what its target would be. -/
def assignmentBody : Stepper Expr := do
  match ← tryArrow l with
  | some arrow => pure arrow
  | none => assigned l

/-- The declarators of a declaration. -/
def declarators (kind : DeclKind) (done : List (String × Option Expr)) :
    Nat → Stepper (List (String × Option Expr))
  | 0 => crash
  | fuel + 1 => do
    let name ← ident
    let init ← if ← eat .assign then some <$> l.assignment else pure none
    if kind = .constDecl && init.isNone then fail "Missing initializer in const declaration"
    else if ← eat .comma then declarators kind ((name, init) :: done) fuel
    else pure ((name, init) :: done).reverse

/-- A declaration whose first word comes next. -/
def declaration (kind : DeclKind) : Stepper Stmt := do
  bump
  pure (.decl kind (← declarators l kind [] (← budget)))

/-- The named function behind the word `function`. -/
def namedFunction : Stepper Stmt := do
  let name ← ident
  pure (.function (← functionRest l (some name)))

/-- An expression between parentheses. -/
def parenthesized : Stepper Expr := do
  expect .openParen
  let e ← expression l.assignment
  expect .closeParen
  pure e

/-- An expression, unless the punctuator that ends it comes first. -/
def exprUnless (p : Punctuator) : Stepper (Option Expr) := do
  if beginsWith p (← ahead) then pure none else some <$> expression l.assignment

/-- A loop over items or keys, from the word of its declaration on. -/
def iteration : Stepper Stmt := do
  bump
  let name ← ident
  let overItems := beginsWithWord ["of"] (← ahead)
  bump
  let source ← expression l.assignment
  expect .closeParen
  let body ← l.statement
  pure (if overItems then .forOf name source body else .forIn name source body)

/-- What a loop with a condition starts with. -/
def loopInit : Stepper (Option Stmt) := do
  let tokens ← ahead
  if beginsWith .semicolon tokens then pure none
  else match declAhead? tokens with
    | some kind => some <$> declaration l kind
    | none => (fun e => some (.expr e)) <$> expression l.assignment

/-- A loop with a condition, from what it starts with on. -/
def countedLoop : Stepper Stmt := do
  let init ← loopInit l
  expect .semicolon
  let test ← exprUnless l .semicolon
  expect .semicolon
  let update ← exprUnless l .closeParen
  expect .closeParen
  let body ← l.statement
  pure (.forLoop init test update body)

/-- A loop behind the word `for`. -/
def forStatement : Stepper Stmt := do
  expect .openParen
  if startsIteration (← ahead) then iteration l else countedLoop l

/-- A statement behind the word `export`. -/
def exportStatement : Stepper Stmt := do
  if ← eatWord "default" then
    let value ← l.assignment
    endStatement
    pure (.exportDefault value)
  else
    let inner ← l.statement
    match inner with
    | .function _ | .decl .. => pure (.export inner)
    | _ => fail "Unexpected export"

/-- A statement that starts with no keyword. -/
def expressionStatement : Stepper Stmt := do
  let e ← expression l.assignment
  endStatement
  pure (.expr e)

/-- The value of a `return`, unless the statement ends before it. -/
def returnValue : Stepper (Option Expr) := do
  let tokens ← ahead
  if beginsWith .semicolon tokens || beginsWith .closeBrace tokens || atEnd tokens then pure none
  else some <$> expression l.assignment

/-- The statement that a word at its front introduces, if the word introduces one. -/
def keywordStatement? (word : String) : Option (Stepper Stmt) :=
  match word with
  | "let" | "const" | "var" => some do
    let s ← declaration l ((declKind? word).getD .varDecl)
    endStatement
    pure s
  | "function" => some do
    bump
    namedFunction l
  | "return" => some do
    bump
    let value ← returnValue l
    endStatement
    pure (.return value)
  | "if" => some do
    bump
    let test ← parenthesized l
    let consequent ← l.statement
    let alternative ← if ← eatWord "else" then some <$> l.statement else pure none
    pure (.branch test consequent alternative)
  | "while" => some do
    bump
    let test ← parenthesized l
    pure (.whileLoop test (← l.statement))
  | "do" => some do
    bump
    let body ← l.statement
    if ← eatWord "while" then
      let test ← parenthesized l
      endStatement
      pure (.doLoop body test)
    else unexpected
  | "for" => some do
    bump
    forStatement l
  | "break" => some do
    bump
    endStatement
    pure .break
  | "continue" => some do
    bump
    endStatement
    pure .continue
  | "throw" => some do
    bump
    let value ← expression l.assignment
    endStatement
    pure (.throw value)
  | "export" => some do
    bump
    exportStatement l
  | _ => none

/-- A statement. -/
def statementBody : Stepper Stmt := do
  let tokens ← ahead
  match kindAt tokens with
  | .punctuator .semicolon =>
    bump
    pure .empty
  | .punctuator .openBrace => pure (.block (← block l.statement))
  | .word word =>
    match keywordStatement? l word with
    | some p => p
    | none =>
      if word = "async" && beginsWithWord ["function"] (tokens.drop 1) then
        bump
        bump
        namedFunction l
      else if (← read).shorthand && startsShorthand tokens then namedFunction l
      else expressionStatement l
  | _ => expressionStatement l

/-- The steppers that may call each other so many levels deep. -/
def level : Nat → Level
  | 0 => ⟨crash, crash, crash, fun _ => crash⟩
  | n + 1 =>
    let inner := level n
    ⟨nested (statementBody inner), nested (assignmentBody inner), nested (unaryBody inner),
      binaryBody inner⟩

/-- All statements up to the end, each with the offsets of its first token and of the token behind
it. -/
def program (done : List (Stmt × Nat × Nat)) : Nat → Stepper (List (Stmt × Nat × Nat))
  | 0 => crash
  | fuel + 1 => do
    if atEnd (← ahead) then pure done.reverse
    else
      let start ← offset
      let s ← l.statement
      program ((s, start, ← offset) :: done) fuel

/-- Parses a whole text; no result means a crash. -/
def run (shorthand : Bool) (source : String) :
    Option (Except ScriptError (List (Stmt × Nat × Nat))) :=
  match tokenize source with
  | .error e => some (.error e)
  | .ok tokens =>
    (program l [] (tokens.length + 1) ⟨tokens, 0, shorthand⟩ ⟨0, 0⟩).map (·.1)

/-- The statements of a whole text. -/
def statements (shorthand : Bool) (source : String) : Option (Except ScriptError (List Stmt)) :=
  (run l shorthand source).map (·.map (·.map (·.1)))

end Stepper
end Stencil.Script
