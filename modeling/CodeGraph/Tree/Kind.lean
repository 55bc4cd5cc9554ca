/-
# Syntax kinds and token roles

The categories of syntax nodes, in their fixed order, and the roles of tokens. Their names are part
of the tree format and label the nodes of every output.
-/
import CodeGraph.Json.Shape

namespace CodeGraph

/-! ## Kinds of nodes -/

/-- The category of a syntax node: declarations, statements, expressions and types. -/
inductive Kind
  | compilationUnit
  | typeDeclaration
  | enumDeclaration
  | anonymousClassDeclaration
  | methodDeclaration
  | fieldDeclaration
  | singleVariableDeclaration
  | variableDeclarationStatement
  | variableDeclarationExpression
  | variableDeclarationFragment
  | typeParameter
  | modifier
  | assertStatement
  | block
  | breakStatement
  | catchClause
  | constructorInvocation
  | continueStatement
  | doStatement
  | emptyStatement
  | enhancedForStatement
  | expressionStatement
  | forStatement
  | ifStatement
  | labeledStatement
  | returnStatement
  | superConstructorInvocation
  | switchCase
  | switchStatement
  | synchronizedStatement
  | throwStatement
  | tryStatement
  | whileStatement
  | arrayAccess
  | arrayCreation
  | arrayInitializer
  | assignment
  | castExpression
  | classInstanceCreation
  | conditionalExpression
  | creationReference
  | expressionMethodReference
  | fieldAccess
  | infixExpression
  | instanceofExpression
  | lambdaExpression
  | methodInvocation
  | parenthesizedExpression
  | postfixExpression
  | prefixExpression
  | qualifiedName
  | superFieldAccess
  | superMethodInvocation
  | superMethodReference
  | thisExpression
  | typeLiteral
  | typeMethodReference
  | arrayType
  | dimension
  | intersectionType
  | nameQualifiedType
  | parameterizedType
  | primitiveType
  | qualifiedType
  | simpleType
  | unionType
  | wildcardType
  deriving DecidableEq, Repr, Inhabited

namespace Kind

/-- All kinds, in order. -/
def all : List Kind :=
  [.compilationUnit, .typeDeclaration, .enumDeclaration, .anonymousClassDeclaration,
    .methodDeclaration, .fieldDeclaration, .singleVariableDeclaration,
    .variableDeclarationStatement, .variableDeclarationExpression, .variableDeclarationFragment,
    .typeParameter, .modifier, .assertStatement, .block, .breakStatement, .catchClause,
    .constructorInvocation, .continueStatement, .doStatement, .emptyStatement,
    .enhancedForStatement, .expressionStatement, .forStatement, .ifStatement, .labeledStatement,
    .returnStatement, .superConstructorInvocation, .switchCase, .switchStatement,
    .synchronizedStatement, .throwStatement, .tryStatement, .whileStatement, .arrayAccess,
    .arrayCreation, .arrayInitializer, .assignment, .castExpression, .classInstanceCreation,
    .conditionalExpression, .creationReference, .expressionMethodReference, .fieldAccess,
    .infixExpression, .instanceofExpression, .lambdaExpression, .methodInvocation,
    .parenthesizedExpression, .postfixExpression, .prefixExpression, .qualifiedName,
    .superFieldAccess, .superMethodInvocation, .superMethodReference, .thisExpression,
    .typeLiteral, .typeMethodReference, .arrayType, .dimension, .intersectionType,
    .nameQualifiedType, .parameterizedType, .primitiveType, .qualifiedType, .simpleType,
    .unionType, .wildcardType]

/-- The name of a kind. -/
def name : Kind → String
  | compilationUnit => "CompilationUnit"
  | typeDeclaration => "TypeDeclaration"
  | enumDeclaration => "EnumDeclaration"
  | anonymousClassDeclaration => "AnonymousClassDeclaration"
  | methodDeclaration => "MethodDeclaration"
  | fieldDeclaration => "FieldDeclaration"
  | singleVariableDeclaration => "SingleVariableDeclaration"
  | variableDeclarationStatement => "VariableDeclarationStatement"
  | variableDeclarationExpression => "VariableDeclarationExpression"
  | variableDeclarationFragment => "VariableDeclarationFragment"
  | typeParameter => "TypeParameter"
  | modifier => "Modifier"
  | assertStatement => "AssertStatement"
  | block => "Block"
  | breakStatement => "BreakStatement"
  | catchClause => "CatchClause"
  | constructorInvocation => "ConstructorInvocation"
  | continueStatement => "ContinueStatement"
  | doStatement => "DoStatement"
  | emptyStatement => "EmptyStatement"
  | enhancedForStatement => "EnhancedForStatement"
  | expressionStatement => "ExpressionStatement"
  | forStatement => "ForStatement"
  | ifStatement => "IfStatement"
  | labeledStatement => "LabeledStatement"
  | returnStatement => "ReturnStatement"
  | superConstructorInvocation => "SuperConstructorInvocation"
  | switchCase => "SwitchCase"
  | switchStatement => "SwitchStatement"
  | synchronizedStatement => "SynchronizedStatement"
  | throwStatement => "ThrowStatement"
  | tryStatement => "TryStatement"
  | whileStatement => "WhileStatement"
  | arrayAccess => "ArrayAccess"
  | arrayCreation => "ArrayCreation"
  | arrayInitializer => "ArrayInitializer"
  | assignment => "Assignment"
  | castExpression => "CastExpression"
  | classInstanceCreation => "ClassInstanceCreation"
  | conditionalExpression => "ConditionalExpression"
  | creationReference => "CreationReference"
  | expressionMethodReference => "ExpressionMethodReference"
  | fieldAccess => "FieldAccess"
  | infixExpression => "InfixExpression"
  | instanceofExpression => "InstanceofExpression"
  | lambdaExpression => "LambdaExpression"
  | methodInvocation => "MethodInvocation"
  | parenthesizedExpression => "ParenthesizedExpression"
  | postfixExpression => "PostfixExpression"
  | prefixExpression => "PrefixExpression"
  | qualifiedName => "QualifiedName"
  | superFieldAccess => "SuperFieldAccess"
  | superMethodInvocation => "SuperMethodInvocation"
  | superMethodReference => "SuperMethodReference"
  | thisExpression => "ThisExpression"
  | typeLiteral => "TypeLiteral"
  | typeMethodReference => "TypeMethodReference"
  | arrayType => "ArrayType"
  | dimension => "Dimension"
  | intersectionType => "IntersectionType"
  | nameQualifiedType => "NameQualifiedType"
  | parameterizedType => "ParameterizedType"
  | primitiveType => "PrimitiveType"
  | qualifiedType => "QualifiedType"
  | simpleType => "SimpleType"
  | unionType => "UnionType"
  | wildcardType => "WildcardType"

/-- The kind of that name. -/
def ofName? (name : String) : Option Kind := all.find? (·.name == name)

/-- A node that gives a value to a name: an assignment or a declarator. -/
def isAssignment : Kind → Bool
  | assignment | variableDeclarationFragment => true
  | _ => false

/-- A node that declares a type. -/
def isTypeDeclaration : Kind → Bool
  | typeDeclaration | enumDeclaration | anonymousClassDeclaration => true
  | _ => false

/-- Reads a kind by its name. -/
def read : Json.Reader Kind :=
  Json.readChoice (all.map fun kind => Json.Alternative.named kind.name kind)

end Kind

/-! ## Roles of tokens -/

/-- What a token is to its method. -/
inductive Role
  /-- A keyword, an operator, punctuation or a number. -/
  | plain
  /-- A name: it stands for a symbol and is made of words. -/
  | identifier
  /-- A text that is made of words, such as a string. -/
  | literal
  deriving DecidableEq, Repr, Inhabited

namespace Role

/-- All roles, in order. -/
def all : List Role := [.plain, .identifier, .literal]

/-- The name of a role. -/
def name : Role → String
  | plain => "plain"
  | identifier => "identifier"
  | literal => "literal"

/-- The role of that name. -/
def ofName? (name : String) : Option Role := all.find? (·.name == name)

/-- The texts of such tokens are made of words. -/
def hasWords : Role → Bool
  | plain => false
  | identifier | literal => true

/-- Reads a role by its name. -/
def read : Json.Reader Role :=
  Json.readChoice (all.map fun role => Json.Alternative.named role.name role)

end Role

end CodeGraph
