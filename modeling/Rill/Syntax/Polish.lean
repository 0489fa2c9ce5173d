import Rill.Decimal.Notation
import Rill.Syntax.Tree

/-! Programs in parenthesised prefix form, one statement a line. -/
namespace Rill.Syntax

/-- A list of forms in parentheses. -/
def form (parts : List String) : String := "(" ++ " ".intercalate parts ++ ")"

def Atom.polish : Atom → String
  | .int i => toString i.toInt
  | .float x => Decimal.write .outlined x
  | .bool b => toString b
  | .null => "null"
  | .var name => name
  | .string s => Outline.quoted s

mutual

def Expr.polish : Expr → String
  | .atom a _ => a.polish
  | .group inner _ => form ["group", inner.polish]
  | .sequence parts _ => form ("sequence" :: polishAll parts)
  | .unary op operand _ => form [op.text, operand.polish]
  | .binary op lhs rhs _ => form [op.text, lhs.polish, rhs.polish]
  | .logic op lhs rhs _ => form [op.text, lhs.polish, rhs.polish]
  | .assign op target value _ => form [op.text, target.polish, value.polish]
  | .call callee arguments _ => form ("call" :: callee.polish :: polishAll arguments)
  | .create type arguments _ => form ("new" :: type.polish :: polishAll arguments)
  | .subscript object index _ => form ["[]", object.polish, index.polish]
  | .attr object name _ => form [".", object.polish, name.name]
  | .function decl => decl.polish
  | .list elements _ => form ("list" :: polishAll elements)
  | .dict entries _ => form ("dict" :: polishEntries entries)

def Target.polish : Target → String
  | .var name => name.name
  | .attr object name _ => form [".", object.polish, name.name]
  | .subscript object index _ => form ["[]", object.polish, index.polish]

def polishAll : List Expr → List String
  | [] => []
  | e :: es => e.polish :: polishAll es

def polishEntries : List (Expr × Expr) → List String
  | [] => []
  | (key, value) :: es => form [key.polish, value.polish] :: polishEntries es

def FunctionDecl.polish : FunctionDecl → String
  | ⟨name, parameters, body, _⟩ =>
    form ["fun", name.name, form (parameters.map Ident.name), form ("block" :: polishBody body)]

def polishBody : List Stmt → List String
  | [] => []
  | s :: ss => s.polish :: polishBody ss

def Stmt.polish : Stmt → String
  | .functionDecl decl => decl.polish
  | .moduleDecl name body _ => form ["module", name.name, form ("block" :: polishBody body)]
  | .classDecl name none body _ => form ["class", name.name, form ("block" :: polishBody body)]
  | .classDecl name (some e) body _ =>
    form ["class", name.name, e.polish, form ("block" :: polishBody body)]
  | .block body _ => form ("block" :: polishBody body)
  | .includeFile path _ => form ["include", Outline.quoted path]
  | .expr value => value.polish
  | .ifElse condition success none _ =>
    form ["if", condition.polish, form ("block" :: polishBody success)]
  | .ifElse condition success (some failure) _ =>
    form ["if", condition.polish, form ("block" :: polishBody success),
      form ("block" :: polishBody failure)]
  | .loop condition body step testAfter _ =>
    form ([if testAfter then "do-while" else "while",
      match condition with
      | none => "true"
      | some e => e.polish,
      form ("block" :: polishBody body)] ++
      match step with
      | none => []
      | some e => [e.polish])
  | .forEach element iterable body _ =>
    form ["for", element.name, iterable.polish, form ("block" :: polishBody body)]
  | .breakLoop _ => form ["break"]
  | .continueLoop _ => form ["continue"]
  | .returnValue none _ => form ["return"]
  | .returnValue (some e) _ => form ["return", e.polish]

end

def Program.polish (p : Program) : String := "\n".intercalate (polishBody p)

end Rill.Syntax
