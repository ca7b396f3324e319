import DiffSlice.JavaScript.Rule

/-!
# The grammar of JavaScript

`Phrase.rule` gives the rule of each phrase, with the markup elements that may stand in expressions. The rules allow
more than one reading of some texts, such as a block that could be an object. The standings of ranks and phrases
(`standings`) decide between most of these readings as a text is read, and the weights decide between the rest.
-/

namespace DiffSlice.JavaScript

open Token Phrase Rule

/-- The words with a meaning of their own that are names elsewhere. -/
def contextualName : Rule :=
  naming (choice [getWord, setWord, asyncWord, awaitWord, staticWord, exportWord, letWord])

def anyNameRule : Rule := choice [identifier, contextualName]

def statementEnd : Rule := choice [automaticSemicolon, semicolon]

/-- One expression or several with commas between. -/
def expressions : Rule := choice [expression, sequenceExpression]

/-- What can be assigned to. -/
def target : Rule :=
  choice [memberExpression, subscriptExpression, undefinedLiteral, identifier, contextualName, destructuringPattern]

/-- What a declaration binds. -/
def binding : Rule := choice [identifier, destructuringPattern]

def parameter : Rule := choice [pattern, assignmentPattern]

/-- A part of a list: one of the options, then more of them. -/
def listOf (part : Rule) (more : Phrase) : Rule := seq [part, opt more]

/-- A list that may have gaps. -/
def sparseList (part : Rule) (more : Phrase) : Rule := seq [opt part, opt more]

/-- More of a list: each part after a comma. -/
def moreOf (list : Phrase) (part : Rule) : Rule := repeated list (seq [comma, part])

def property : Rule := choice [pair, spreadElement, methodDefinition, anyNameRule]

def propertyPattern : Rule := choice [pairPattern, restPattern, objectAssignmentPattern, anyNameRule]

/-- An element of an array or an argument of a call. -/
def element : Rule := choice [expression, spreadElement]

/-- A name of a markup element or of its attributes. -/
def markupName : Rule := choice [hyphenatedName, identifier]

def elementName : Rule := choice [markupName, nestedName, namespacedName]

def markup : Rule := choice [markupElement, selfClosingElement]

/-- What begins a declaration with `using`. -/
def usingKind : Rule := choice [usingWord, seq [awaitWord, usingWord]]

/-- What makes a member of a class static. -/
def staticMark : Rule := choice [staticWord, staticGet]

/-- The rest of a function after its first words, where `ending` ends it. -/
def functionTail (functionName ending : Rule) : Rule :=
  seq [role .name functionName, formalParameters, role .body statementBlock, ending]

/-- A binary expression with the given operator between. -/
def operation (operator : Token) : Rule := seq [expression, operator, expression]

/-- The rule of a phrase. -/
def Phrase.rule : Phrase → Rule
  | program => seq [opt hashBangLine, opt statements]
  | exportStatement => choice [
      seq [exportWord,
        choice [seq [star, fromClause], seq [namespaceExport, fromClause], seq [exportClause, fromClause],
          exportClause],
        statementEnd],
      seq [opt decorators, exportWord,
        choice [role .declaration declaration,
          seq [defaultWord, choice [role .declaration declaration, seq [expression, statementEnd]]]]]]
  | namespaceExport => seq [star, asWord, moduleExportName]
  | exportClause => seq [braceOpen, opt (listOf exportSpecifier moreExports), opt comma, braceClose]
  | exportSpecifier => seq [moduleExportName, opt (seq [asWord, moduleExportName])]
  | moduleExportName => choice [identifier, string, defaultWord]
  | declaration => choice [functionDeclaration, generatorFunctionDeclaration, classDeclaration, lexicalDeclaration,
      variableDeclaration, usingDeclaration]
  | importKeyword => importWord
  | importStatement =>
    seq [importWord, choice [seq [importClause, fromClause], string], opt importAttribute, statementEnd]
  | importClause => choice [namespaceImport, namedImports,
      seq [identifier, opt (seq [comma, choice [namespaceImport, namedImports]])]]
  | fromClause => seq [fromWord, string]
  | namespaceImport => seq [star, asWord, identifier]
  | namedImports => seq [braceOpen, opt (listOf importSpecifier moreImports), opt comma, braceClose]
  | importSpecifier => choice [identifier, seq [moduleExportName, asWord, identifier]]
  | importAttribute => seq [withWord, object]
  | statement => choice [exportStatement, importStatement, debuggerStatement, expressionStatement, declaration,
      statementBlock, ifStatement, switchStatement, forStatement, forInStatement, whileStatement, doStatement,
      tryStatement, withStatement, breakStatement, continueStatement, returnStatement, throwStatement,
      emptyStatement, labeledStatement]
  | expressionStatement => seq [expressions, statementEnd]
  | variableDeclaration => seq [varWord, listOf variableDeclarator moreDeclarators, statementEnd]
  | lexicalDeclaration =>
    seq [choice [letWord, constWord], listOf variableDeclarator moreDeclarators, statementEnd]
  | usingDeclaration => seq [usingKind, listOf variableDeclarator moreDeclarators, statementEnd]
  | variableDeclarator => seq [binding, opt initializer]
  | statementBlock => rightward (seq [braceOpen, opt statements, braceClose, opt automaticSemicolon])
  | elseClause => seq [elseWord, statement]
  | ifStatement => rightward (seq [ifWord, parenthesizedExpression, statement, opt elseClause])
  | switchStatement => seq [switchWord, parenthesizedExpression, switchBody]
  | forStatement => seq [forWord, parenOpen,
      choice [lexicalDeclaration, variableDeclaration, seq [expressions, semicolon], emptyStatement],
      choice [seq [expressions, semicolon], emptyStatement], opt expressions, parenClose, statement]
  | forInStatement => seq [forWord, opt awaitWord, forHeader, statement]
  | forHeader => seq [parenOpen,
      choice [target, parenthesizedExpression, seq [varWord, binding, opt initializer],
        seq [choice [letWord, constWord], binding, opt automaticSemicolon],
        seq [usingKind, binding, opt automaticSemicolon]],
      choice [inWord, ofWord], expressions, parenClose]
  | whileStatement => seq [whileWord, parenthesizedExpression, statement]
  | doStatement => rightward (seq [doWord, statement, whileWord, parenthesizedExpression, opt statementEnd])
  | tryStatement => seq [tryWord, statementBlock, opt catchClause, opt finallyClause]
  | withStatement => seq [withWord, parenthesizedExpression, statement]
  | breakStatement => seq [breakWord, opt identifier, statementEnd]
  | continueStatement => seq [continueWord, opt identifier, statementEnd]
  | debuggerStatement => seq [debuggerWord, statementEnd]
  | returnStatement => seq [returnWord, opt expressions, statementEnd]
  | throwStatement => seq [throwWord, expressions, statementEnd]
  | emptyStatement => semicolon
  | labeledStatement => weighted (-1) (seq [anyNameRule, colon, statement])
  | switchBody => seq [braceOpen, opt switchClauses, braceClose]
  | switchCase => seq [caseWord, expressions, colon, opt statements]
  | switchDefault => seq [defaultWord, colon, opt statements]
  | catchClause => seq [catchWord, opt (seq [parenOpen, binding, parenClose]), statementBlock]
  | finallyClause => seq [finallyWord, statementBlock]
  | parenthesizedExpression => seq [parenOpen, expressions, parenClose]
  | expression => choice [primaryExpression, markup, assignmentExpression, augmentedAssignment, awaitExpression,
      unaryExpression, binaryExpression, ternaryExpression, updateExpression, newExpression, yieldExpression]
  | primaryExpression => choice [subscriptExpression, memberExpression, parenthesizedExpression, undefinedLiteral,
      identifier, contextualName, thisExpression, superExpression, number, string, templateString, regex,
      trueLiteral, falseLiteral, nullLiteral, object, array, functionExpression, arrowFunction, generatorFunction,
      classExpression, metaProperty, callExpression]
  | yieldExpression => rightward (seq [yieldWord, choice [seq [star, expression], opt expression]])
  | object => rank .object (seq [braceOpen, sparseList property moreProperties, braceClose])
  | objectPattern => rank .object (seq [braceOpen, sparseList propertyPattern morePropertyPatterns, braceClose])
  | assignmentPattern => seq [pattern, equals, expression]
  | objectAssignmentPattern =>
    seq [choice [contextualName, identifier, destructuringPattern], equals, expression]
  | array => seq [bracketOpen, sparseList element moreElements, bracketClose]
  | arrayPattern => seq [bracketOpen, sparseList parameter moreElementPatterns, bracketClose]
  | markupElement => seq [openingElement, opt markupChildren, closingElement]
  | markupExpression =>
    seq [braceOpen, opt (choice [expression, sequenceExpression, spreadElement]), braceClose]
  | openingElement => weighted (-1) (seq [less, opt (seq [elementName, opt markupAttributes]), greater])
  | nestedName => rank .member (seq [choice [identifier, nestedName], dot, identifier])
  | namespacedName => seq [markupName, colon, markupName]
  | closingElement => seq [lessSlash, opt elementName, greater]
  | selfClosingElement => seq [less, elementName, opt markupAttributes, slashGreater]
  | markupAttribute => seq [choice [markupName, namespacedName],
      opt (seq [equals, choice [markupString, markupExpression, markup]])]
  | markupString => choice [seq [doubleQuote, opt markupDoubleParts, doubleQuote],
      seq [singleQuote, opt markupSingleParts, singleQuote]]
  | classExpression => rank .literal (seq [opt decorators, classWord, role .name (opt identifier),
      opt classHeritage, role .body classBody])
  | classDeclaration => rank .declare (seq [opt decorators, classWord, role .name identifier, opt classHeritage,
      role .body classBody, opt automaticSemicolon])
  | classHeritage => seq [extendsWord, expression]
  | functionExpression =>
    rank .literal (seq [opt asyncWord, functionWord, functionTail (opt identifier) blank])
  | functionDeclaration =>
    rankRight .declare (seq [opt asyncWord, functionWord, functionTail identifier (opt automaticSemicolon)])
  | generatorFunction =>
    rank .literal (seq [opt asyncWord, functionWord, star, functionTail (opt identifier) blank])
  | generatorFunctionDeclaration =>
    rankRight .declare (seq [opt asyncWord, functionWord, star, functionTail identifier (opt automaticSemicolon)])
  | arrowFunction => seq [opt asyncWord, choice [contextualName, identifier, formalParameters], arrow,
      role .body (choice [expression, statementBlock])]
  | optionalChain => questionDot
  | callExpression => choice [
      rank .call (seq [role .function (choice [expression, importKeyword]), role .arguments arguments]),
      rank .templateCall
        (seq [role .function (choice [primaryExpression, newExpression]), role .arguments templateString]),
      rank .member (seq [role .function primaryExpression, optionalChain, role .arguments arguments])]
  | newExpression => rankRight .construct
      (seq [newWord, choice [primaryExpression, newExpression], opt (weighted 1 arguments)])
  | awaitExpression => rank .unary (seq [awaitWord, expression])
  | memberExpression => rank .member (seq [choice [expression, primaryExpression, importKeyword],
      choice [dot, optionalChain], choice [privateName, free identifier]])
  | subscriptExpression => rankRight .member (seq [choice [expression, primaryExpression], opt optionalChain,
      bracketOpen, expressions, bracketClose])
  | assignmentExpression =>
    rankRight .assign (seq [choice [parenthesizedExpression, target], equals, expression])
  | augmentedTarget =>
    choice [memberExpression, subscriptExpression, contextualName, identifier, parenthesizedExpression]
  | augmentedAssignment => rankRight .assign (seq [augmentedTarget,
      choice [plusEquals, minusEquals, starEquals, slashEquals, percentEquals, caretEquals, ampersandEquals,
        barEquals, shiftRightEquals, unsignedShiftEquals, shiftLeftEquals, powerEquals, andEquals, orEquals,
        coalesceEquals],
      expression])
  | initializer => seq [equals, expression]
  | destructuringPattern => choice [objectPattern, arrayPattern]
  | spreadElement => seq [ellipsis, expression]
  | ternaryExpression => rankRight .ternary (seq [expression, questionMark, expression, colon, expression])
  | binaryExpression => choice [rankLeft .logicalAnd (operation logicalAnd), rankLeft .logicalOr (operation logicalOr),
      rankLeft .shift (operation shiftRight), rankLeft .shift (operation unsignedShift),
      rankLeft .shift (operation shiftLeft), rankLeft .bitAnd (operation ampersand), rankLeft .bitXor (operation caret),
      rankLeft .bitOr (operation bar), rankLeft .sum (operation plus), rankLeft .sum (operation minus),
      rankLeft .times (operation star), rankLeft .times (operation slash), rankLeft .times (operation percent),
      rankRight .power (operation power), rankLeft .relation (operation less),
      rankLeft .relation (operation lessEquals), rankLeft .equality (operation equal),
      rankLeft .equality (operation identical),
      rankLeft .equality (operation notEqual), rankLeft .equality (operation notIdentical),
      rankLeft .relation (operation greaterEquals), rankLeft .relation (operation greater),
      rankLeft .ternary (operation coalesce), rankLeft .relation (operation instanceofWord),
      rankLeft .relation (seq [choice [expression, privateName], inWord, expression])]
  | unaryExpression => rankLeft .unary
      (seq [choice [exclamation, tilde, minus, plus, typeofWord, voidWord, deleteWord], expression])
  | updateExpression => leftward (choice [seq [expression, choice [increment, decrement]],
      seq [choice [increment, decrement], expression]])
  | sequenceExpression => rightward (listOf expression moreExpressions)
  | string => choice [seq [doubleQuote, opt doubleParts, doubleQuote],
      seq [singleQuote, opt singleParts, singleQuote]]
  | templateString => seq [backtick, opt templateParts, backtick]
  | templateSubstitution => seq [dollarBrace, expressions, braceClose]
  | regex => seq [slash, regexPattern, regexEnd, opt regexFlags]
  | metaProperty => choice [seq [newWord, dot, targetWord], seq [importWord, dot, metaWord]]
  | thisExpression => thisWord
  | superExpression => superWord
  | trueLiteral => trueWord
  | falseLiteral => falseWord
  | nullLiteral => nullWord
  | undefinedLiteral => undefinedWord
  | arguments => seq [parenOpen, sparseList element moreElements, parenClose]
  | decorator => seq [atSign, choice [identifier, decoratorMember, decoratorCall]]
  | decoratorMember => rank .member (seq [choice [identifier, decoratorMember], dot, identifier])
  | decoratorCall => rank .call (seq [choice [identifier, decoratorMember], arguments])
  | classBody => seq [braceOpen, opt classMembers, braceClose]
  | fieldDefinition => seq [opt decorators, opt staticMark, role .name propertyName, opt initializer]
  | formalParameters => seq [parenOpen, opt (seq [listOf parameter moreParameters, opt comma]), parenClose]
  | staticBlock => seq [staticWord, opt automaticSemicolon, role .body statementBlock]
  | pattern => weighted (-1) (choice [target, restPattern])
  | restPattern => rightward (seq [ellipsis, target])
  | methodDefinition => seq [opt decorators, opt staticMark, opt asyncWord, opt (choice [getWord, setWord, star]),
      functionTail propertyName blank]
  | pair => seq [propertyName, colon, expression]
  | pairPattern => seq [propertyName, colon, parameter]
  | propertyName => free (choice [anyNameRule, privateName, string, number, computedName])
  | computedName => seq [bracketOpen, expression, bracketClose]
  | statements => repeated statements statement
  | decorators => repeated decorators decorator
  | moreExports => moreOf moreExports exportSpecifier
  | moreImports => moreOf moreImports importSpecifier
  | moreDeclarators => moreOf moreDeclarators variableDeclarator
  | switchClauses => repeated switchClauses (choice [switchCase, switchDefault])
  | moreProperties => moreOf moreProperties (opt property)
  | morePropertyPatterns => moreOf morePropertyPatterns (opt propertyPattern)
  | moreElements => moreOf moreElements (opt element)
  | moreElementPatterns => moreOf moreElementPatterns (opt parameter)
  | markupChildren => repeated markupChildren (choice [markupText, characterReference, markup, markupExpression])
  | markupAttributes => repeated markupAttributes (choice [markupAttribute, markupExpression])
  | markupDoubleParts => repeated markupDoubleParts (choice [markupDoubleFragment, characterReference])
  | markupSingleParts => repeated markupSingleParts (choice [markupSingleFragment, characterReference])
  | moreExpressions => moreOf moreExpressions expression
  | doubleParts => repeated doubleParts (choice [doubleFragment, escapeSequence])
  | singleParts => repeated singleParts (choice [singleFragment, escapeSequence])
  | templateParts => repeated templateParts (choice [templateText, escapeSequence, templateSubstitution])
  | classMembers => repeated classMembers (choice [seq [methodDefinition, opt semicolon],
      seq [fieldDefinition, choice [automaticSemicolon, semicolon]], staticBlock, semicolon])
  | moreParameters => moreOf moreParameters parameter

/-- What has a standing: a rank, or a phrase whatever its rank. -/
inductive Standing where
  | rank (r : Rank)
  | phrase (p : Phrase)

/-- The orders of ranks and phrases, stronger ones first. Two that are in no order together leave a choice open. -/
def standings : List (List Standing) :=
  [[.rank .member, .rank .templateCall, .rank .call, .phrase updateExpression, .rank .unary, .rank .power,
    .rank .times, .rank .sum, .rank .shift, .rank .relation, .rank .equality, .rank .bitAnd, .rank .bitXor,
    .rank .bitOr, .rank .logicalAnd, .rank .logicalOr, .rank .ternary, .phrase sequenceExpression,
    .phrase arrowFunction],
   [.rank .assign, .phrase primaryExpression],
   [.rank .member, .rank .templateCall, .rank .construct, .rank .call, .phrase expression],
   [.rank .declare, .rank .literal],
   [.phrase primaryExpression, .phrase statementBlock, .rank .object],
   [.phrase metaProperty, .phrase importKeyword],
   [.phrase importStatement, .phrase importKeyword],
   [.phrase exportStatement, .phrase primaryExpression],
   [.phrase lexicalDeclaration, .phrase primaryExpression],
   [.phrase primaryExpression, .phrase awaitExpression]]

/-- The standing is that of a phrase of the given rank, or of one of the given phrases. -/
def Standing.fits (rank : Option Rank) (phrases : List Phrase) : Standing → Bool
  | .rank r => rank == some r
  | .phrase p => phrases.contains p

/-- Which of two binds more strongly by one order: `gt` if the first does. An entry that fits both tells nothing. -/
def compareIn (fitsFirst fitsSecond : Standing → Bool) (seenFirst seenSecond : Bool) : List Standing → Ordering
  | [] => .eq
  | entry :: entries =>
    if fitsFirst entry then
      if seenSecond then .lt else compareIn fitsFirst fitsSecond true seenSecond entries
    else if fitsSecond entry then
      if seenFirst then .gt else compareIn fitsFirst fitsSecond seenFirst true entries
    else compareIn fitsFirst fitsSecond seenFirst seenSecond entries

/-- Which of two, each with its rank and its phrases, binds more strongly: `gt` if the first does. The first order
that knows both decides. -/
def compareStanding (first second : Option Rank × List Phrase) : Ordering :=
  standings.foldl
    (fun found order => found.then
      (compareIn (Standing.fits first.1 first.2) (Standing.fits second.1 second.2) false false order))
    .eq

end DiffSlice.JavaScript
