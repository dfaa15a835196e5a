/-
Module: CLike.Declaration
Layer: Grammar
Purpose: Reading the declarations of variables and functions.
Main exports: Cursor.parameters, Cursor.functionDeclaration, Cursor.declaration
-/
import CLike.Cursor

namespace CLike.Cursor

/-- Reads the parameters of a function and the parenthesis that closes them.  A parameter is one of
the types `int` and `char` with or without a name, and names are not kept.  There is a comma between
neighbours; commas may also stand before the first and behind the last. -/
def parameters (expecting : Bool) (cursor : Cursor) : Reply (List Token) :=
  match _seen : cursor.peek? with
  | none => ⟨.error .unclosedFunctionDeclaration, cursor⟩
  | some token =>
    if token.kind = .rightParen then ⟨.ok [], cursor.advance⟩
    else if token.kind = .comma then cursor.advance.parameters true
    else if !expecting then ⟨.error .adjacentArguments, cursor⟩
    else if token.kind = .intType ∨ token.kind = .charType then
      ((cursor.advance.skip .identifier).parameters false).map (token :: ·)
    else ⟨.error .parameterWithoutType, cursor⟩
termination_by cursor.rest.length
decreasing_by
  · exact length_advance_lt _seen
  · exact Nat.lt_of_le_of_lt (leadsTo_skip _ _).length_le (length_advance_lt _seen)

/-- Reads the rest of a function's declaration behind the name. -/
def functionDeclaration (returnType name : Token) (cursor : Cursor) : Reply Node :=
  if cursor.peek?.any (·.kind == .leftParen) then
    (cursor.advance.parameters true).map (.functionDeclaration name returnType ·)
  else ⟨.error .danglingFunctionDeclaration, cursor⟩

/-- Reads a declaration whose type is the next token.  The token behind the type is looked at
whether it is in sight or not.  A declaration with a parenthesis anywhere in sight is one of a
function; that of a variable is the type and the name and nothing else. -/
def declaration (type : Token) (cursor : Cursor) : Reply Node :=
  match cursor.advance.rest.head? with
  | none => ⟨.error .danglingDeclaration, cursor⟩
  | some name =>
    if name.kind ≠ .identifier then ⟨.error .badDeclaration, cursor⟩
    else if cursor.visible.any (·.kind == .leftParen) then
      cursor.advance.advance.functionDeclaration type name
    else ⟨.ok (.variableDeclaration name type), cursor.advance.advance⟩

theorem leadsTo_parameters (expecting : Bool) (cursor : Cursor) :
    cursor.LeadsTo (cursor.parameters expecting).cursor := by
  fun_induction parameters expecting cursor with
  | case1 => exact .refl _
  | case2 => exact leadsTo_advance _
  | case3 _ _ _ _ _ _ ih => exact (leadsTo_advance _).trans ih
  | case4 => exact .refl _
  | case5 _ _ _ _ _ _ _ _ ih =>
      exact ((leadsTo_advance _).trans (leadsTo_skip _ _)).trans ih
  | case6 => exact .refl _

theorem leadsTo_functionDeclaration (returnType name : Token) (cursor : Cursor) :
    cursor.LeadsTo (cursor.functionDeclaration returnType name).cursor := by
  unfold functionDeclaration
  split
  · exact (leadsTo_advance _).trans (leadsTo_parameters _ _)
  · exact .refl _

theorem leadsTo_declaration (type : Token) (cursor : Cursor) :
    cursor.LeadsTo (cursor.declaration type).cursor := by
  have behindName : cursor.LeadsTo cursor.advance.advance :=
    (leadsTo_advance _).trans (leadsTo_advance _)
  unfold declaration
  split
  · exact .refl _
  · split
    · exact .refl _
    · split
      · exact behindName.trans (leadsTo_functionDeclaration _ _ _)
      · exact behindName

end CLike.Cursor
