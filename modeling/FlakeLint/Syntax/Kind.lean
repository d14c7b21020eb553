-- SUMMARY: The kinds of syntax nodes and the roles of children that the analysis looks at.

/-!
# Node kinds

Kinds and roles of the JavaScript and TypeScript grammars. Only the named ones
mean something to the analysis; every other kind is walked through.
-/

namespace FlakeLint

inductive Kind where
  | call
  | member
  | identifier
  | string
  | number
  | arguments
  | block
  | returnStatement
  | expressionStatement
  | declarator
  | assignment
  | parenthesized
  | comment
  | property
  | privateProperty
  | arrowFunction
  | functionExpression
  /-- The keyword token, and a function expression in older grammars. -/
  | function
  | generatorFunction
  | functionDeclaration
  | generatorDeclaration
  | forLoop
  | whileLoop
  | doLoop
  /-- What the parser could not fit into the grammar. -/
  | error
  | other (name : String)
deriving DecidableEq, Repr

namespace Kind

def ofName : String → Kind
  | "call_expression" => .call
  | "member_expression" => .member
  | "identifier" => .identifier
  | "string" => .string
  | "number" => .number
  | "arguments" => .arguments
  | "statement_block" => .block
  | "return_statement" => .returnStatement
  | "expression_statement" => .expressionStatement
  | "variable_declarator" => .declarator
  | "assignment_expression" => .assignment
  | "parenthesized_expression" => .parenthesized
  | "comment" => .comment
  | "property_identifier" => .property
  | "private_property_identifier" => .privateProperty
  | "arrow_function" => .arrowFunction
  | "function_expression" => .functionExpression
  | "function" => .function
  | "generator_function" => .generatorFunction
  | "function_declaration" => .functionDeclaration
  | "generator_function_declaration" => .generatorDeclaration
  | "for_statement" => .forLoop
  | "while_statement" => .whileLoop
  | "do_statement" => .doLoop
  | "ERROR" => .error
  | name => .other name

def name : Kind → String
  | .call => "call_expression"
  | .member => "member_expression"
  | .identifier => "identifier"
  | .string => "string"
  | .number => "number"
  | .arguments => "arguments"
  | .block => "statement_block"
  | .returnStatement => "return_statement"
  | .expressionStatement => "expression_statement"
  | .declarator => "variable_declarator"
  | .assignment => "assignment_expression"
  | .parenthesized => "parenthesized_expression"
  | .comment => "comment"
  | .property => "property_identifier"
  | .privateProperty => "private_property_identifier"
  | .arrowFunction => "arrow_function"
  | .functionExpression => "function_expression"
  | .function => "function"
  | .generatorFunction => "generator_function"
  | .functionDeclaration => "function_declaration"
  | .generatorDeclaration => "generator_function_declaration"
  | .forLoop => "for_statement"
  | .whileLoop => "while_statement"
  | .doLoop => "do_statement"
  | .error => "ERROR"
  | .other name => name

/-- Functions that are values: what can be passed as a callback. -/
def isCallback : Kind → Bool
  | .arrowFunction | .functionExpression | .function | .generatorFunction => true
  | _ => false

def isFunctionDeclaration : Kind → Bool
  | .functionDeclaration | .generatorDeclaration => true
  | _ => false

def isFunction (k : Kind) : Bool :=
  k.isCallback || k.isFunctionDeclaration

def isLoop : Kind → Bool
  | .forLoop | .whileLoop | .doLoop => true
  | _ => false

/-- Kinds that name the property of a member expression. -/
def isPropertyName : Kind → Bool
  | .property | .privateProperty | .identifier => true
  | _ => false

end Kind

/-- The role of a node among the children of its parent. -/
inductive Role where
  | function
  | arguments
  | object
  | property
  | name
  | body
  | other (name : String)
deriving DecidableEq, Repr

def Role.ofName : String → Role
  | "function" => .function
  | "arguments" => .arguments
  | "object" => .object
  | "property" => .property
  | "name" => .name
  | "body" => .body
  | word => .other word

end FlakeLint
