import DiffSlice.JavaScript.Token

/-!
# Phrases

The nonterminal symbols of the grammar of JavaScript. Some only group others (`isHidden`) and leave no node of their
own in the tree; the others have a name (`typeName`). The last twenty are the repetitions.
-/

namespace DiffSlice.JavaScript

/-- A nonterminal symbol. -/
inductive Phrase where
  | program | exportStatement | namespaceExport | exportClause | exportSpecifier | moduleExportName | declaration
  | importKeyword | importStatement | importClause | fromClause | namespaceImport | namedImports | importSpecifier
  | importAttribute | statement | expressionStatement | variableDeclaration | lexicalDeclaration | usingDeclaration
  | variableDeclarator | statementBlock | elseClause | ifStatement | switchStatement | forStatement | forInStatement
  | forHeader | whileStatement | doStatement | tryStatement | withStatement | breakStatement | continueStatement
  | debuggerStatement | returnStatement | throwStatement | emptyStatement | labeledStatement | switchBody | switchCase
  | switchDefault | catchClause | finallyClause | parenthesizedExpression | expression | primaryExpression
  | yieldExpression | object | objectPattern | assignmentPattern | objectAssignmentPattern | array | arrayPattern
  | markupElement | markupExpression | openingElement | nestedName | namespacedName | closingElement
  | selfClosingElement | markupAttribute | markupString | classExpression | classDeclaration | classHeritage
  | functionExpression | functionDeclaration | generatorFunction | generatorFunctionDeclaration | arrowFunction
  | optionalChain | callExpression | newExpression | awaitExpression | memberExpression | subscriptExpression
  | assignmentExpression | augmentedTarget | augmentedAssignment | initializer | destructuringPattern | spreadElement
  | ternaryExpression | binaryExpression | unaryExpression | updateExpression | sequenceExpression | string
  | templateString | templateSubstitution | regex | metaProperty | thisExpression | superExpression | trueLiteral
  | falseLiteral | nullLiteral | undefinedLiteral | arguments | decorator | decoratorMember | decoratorCall | classBody
  | fieldDefinition | formalParameters | staticBlock | pattern | restPattern | methodDefinition | pair | pairPattern
  | propertyName | computedName
  | statements | decorators | moreExports | moreImports | moreDeclarators | switchClauses | moreProperties
  | morePropertyPatterns | moreElements | moreElementPatterns | markupChildren | markupAttributes | markupDoubleParts
  | markupSingleParts | moreExpressions | doubleParts | singleParts | templateParts | classMembers | moreParameters
deriving DecidableEq, Repr

namespace Phrase

def count : Nat := Phrase.moreParameters.ctorIdx + 1

def all : List Phrase := (List.range count).map Phrase.ofNat

/-- The phrase groups others and is no node of its own. -/
def isHidden : Phrase → Bool
  | moduleExportName | declaration | fromClause | statement | forHeader | expression | primaryExpression
  | markupString | augmentedTarget | initializer | destructuringPattern | pattern | propertyName | statements
  | decorators | moreExports | moreImports | moreDeclarators | switchClauses | moreProperties | morePropertyPatterns
  | moreElements | moreElementPatterns | markupChildren | markupAttributes | markupDoubleParts | markupSingleParts
  | moreExpressions | doubleParts | singleParts | templateParts | classMembers | moreParameters => true
  | _ => false

/-- The name of a statement or a member of a class. What stands only within these has none here. -/
def typeName : Phrase → String
  | program => "program"
  | exportStatement => "export_statement"
  | importStatement => "import_statement"
  | expressionStatement => "expression_statement"
  | variableDeclaration => "variable_declaration"
  | lexicalDeclaration => "lexical_declaration"
  | usingDeclaration => "using_declaration"
  | statementBlock => "statement_block"
  | ifStatement => "if_statement"
  | switchStatement => "switch_statement"
  | forStatement => "for_statement"
  | forInStatement => "for_in_statement"
  | whileStatement => "while_statement"
  | doStatement => "do_statement"
  | tryStatement => "try_statement"
  | withStatement => "with_statement"
  | breakStatement => "break_statement"
  | continueStatement => "continue_statement"
  | debuggerStatement => "debugger_statement"
  | returnStatement => "return_statement"
  | throwStatement => "throw_statement"
  | emptyStatement => "empty_statement"
  | labeledStatement => "labeled_statement"
  | classDeclaration => "class_declaration"
  | functionDeclaration => "function_declaration"
  | generatorFunctionDeclaration => "generator_function_declaration"
  | fieldDefinition => "field_definition"
  | staticBlock => "class_static_block"
  | methodDefinition => "method_definition"
  | decorator => "decorator"
  | _ => ""

end Phrase

/-- A set of phrases, as the bits of a number. -/
structure PhraseSet where
  bits : Nat
deriving DecidableEq, Repr

namespace PhraseSet

def empty : PhraseSet := ⟨0⟩

def single (p : Phrase) : PhraseSet := ⟨1 <<< p.ctorIdx⟩

def union (a b : PhraseSet) : PhraseSet := ⟨a.bits ||| b.bits⟩

def has (s : PhraseSet) (p : Phrase) : Bool := s.bits.testBit p.ctorIdx

def toList (s : PhraseSet) : List Phrase := Phrase.all.filter s.has

def unions (sets : List PhraseSet) : PhraseSet := sets.foldl union empty

end PhraseSet

/-- A symbol of the grammar. -/
inductive Symbol where
  | token (t : Token)
  | phrase (p : Phrase)
deriving DecidableEq, Repr

namespace Symbol

def count : Nat := Token.count + Phrase.count

/-- The place of a symbol among all, tokens first. -/
def index : Symbol → Nat
  | token t => t.ctorIdx
  | phrase p => Token.count + p.ctorIdx

end Symbol

end DiffSlice.JavaScript
