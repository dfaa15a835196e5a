/-
Module: CLike.Proofs.ParameterWalk
Layer: Proofs
Purpose: The parameters of a function are read by an automaton with three states, and the first
  token that it has no move for decides what becomes of the declaration.
Main exports: ParameterState, ParameterState.next, ParameterState.walk, ParameterState.reading_next,
  ParameterState.reading_stuck, ParameterState.reading_walk, Cursor.statement_walks_parameters
-/
import CLike.Proofs.StatementLanguage

namespace CLike

/-- Where a walk over parameters stands. -/
inductive ParameterState where
  /-- A type can follow: this is the start, or a comma has just been passed. -/
  | expecting
  /-- A type has been passed. -/
  | typed
  /-- A type and a name have been passed. -/
  | named
deriving Repr, DecidableEq

namespace ParameterState

/-- The move that a token makes.  A parenthesis makes none, and neither does a semicolon. -/
def next : ParameterState → Kind → Option ParameterState
  | _, .comma => some expecting
  | expecting, .intType => some typed
  | expecting, .charType => some typed
  | typed, .identifier => some named
  | _, _ => none

/-- The error for a token that makes no move. -/
def refusal : ParameterState → GrammarError
  | expecting => .parameterWithoutType
  | typed => .adjacentArguments
  | named => .adjacentArguments

/-- A token is kept if it is a type, which the move from `expecting` to `typed` tells. -/
def keep (before after : ParameterState) (token : Token) : List Token :=
  if before = expecting ∧ after = typed then [token] else []

/-- Where a walk has stopped, the tokens that it has kept, and how many it has passed. -/
structure Walk where
  final : ParameterState
  types : List Token
  length : Nat

/-- Passes tokens as long as they make moves. -/
def walk : ParameterState → List Token → Walk
  | state, [] => ⟨state, [], 0⟩
  | state, token :: rest =>
    match state.next token.kind with
    | none => ⟨state, [], 0⟩
    | some after =>
      let later := after.walk rest
      ⟨later.final, keep state after token ++ later.types, later.length + 1⟩

/-- What a move can be: past a comma, past a type, and past the name behind a type. -/
theorem next_cases {state after : ParameterState} {kind : Kind}
    (moves : state.next kind = some after) :
    (kind = .comma ∧ after = expecting) ∨
      (state = expecting ∧ (kind = .intType ∨ kind = .charType) ∧ after = typed) ∨
      (state = typed ∧ kind = .identifier ∧ after = named) := by
  cases state <;> cases kind <;> simp_all [next]

theorem next_semicolon (state : ParameterState) : state.next .semicolon = none := by
  cases state <;> rfl

/-!
### The loop

The loop over parameters has one flag and passes a name together with its type, so it stands in
`typed` only until it has looked for the name.
-/

/-- What the loop reads from a state on. -/
def reading : ParameterState → Cursor → Reply (List Token)
  | expecting, cursor => cursor.parameters true
  | typed, cursor => (cursor.skip .identifier).parameters false
  | named, cursor => cursor.parameters false

theorem reading_eq_parameters {state : ParameterState} {cursor : Cursor}
    (nameless : state = typed → ∀ token ∈ cursor.peek?, token.kind ≠ .identifier) :
    state.reading cursor = cursor.parameters (state == expecting) := by
  cases state with
  | expecting => rfl
  | typed =>
      have unskipped : cursor.skip .identifier = cursor := by
        refine if_neg fun named => ?_
        obtain ⟨token, seen, isName⟩ := (Option.any_eq_true ..).mp named
        exact nameless rfl token seen (eq_of_beq isName)
      rw [reading, unskipped]
      rfl
  | named => rfl

theorem reading_unseen (state : ParameterState) {cursor : Cursor} (unseen : cursor.peek? = none) :
    state.reading cursor = ⟨.error .unclosedFunctionDeclaration, cursor⟩ := by
  rw [reading_eq_parameters, Cursor.parameters_eq, unseen]
  rintro - token seen
  cases unseen.symm.trans seen

section

variable {state : ParameterState} {cursor : Cursor} {token : Token}

theorem reading_seen (seen : cursor.peek? = some token)
    (nameless : state = typed → token.kind ≠ .identifier) :
    state.reading cursor = cursor.parameters (state == expecting) := by
  apply reading_eq_parameters
  intro isTyped other also
  obtain rfl := Option.some.inj (seen.symm.trans also)
  exact nameless isTyped

theorem reading_closing (state : ParameterState) (seen : cursor.peek? = some token)
    (closes : token.kind = .rightParen) : state.reading cursor = ⟨.ok [], cursor.advance⟩ := by
  have noName : token.kind ≠ .identifier := ne_of_eq_of_ne closes (by decide)
  rw [reading_seen seen fun _ => noName, Cursor.parameters_eq, seen]
  exact if_pos closes

/-- A move of the automaton is a turn of the loop, or the half of one. -/
theorem reading_next {after : ParameterState} (seen : cursor.peek? = some token)
    (moves : state.next token.kind = some after) :
    state.reading cursor = (after.reading cursor.advance).map (keep state after token ++ ·) := by
  rcases next_cases moves with ⟨isComma, rfl⟩ | ⟨rfl, isType, rfl⟩ | ⟨rfl, isName, rfl⟩
  · have noName : token.kind ≠ .identifier := ne_of_eq_of_ne isComma (by decide)
    have nothing : keep state expecting token = [] := by simp [keep]
    rw [reading_seen seen fun _ => noName, Cursor.parameters_eq, seen, nothing,
      Reply.map_nil_append]
    simp [isComma, reading]
  · have noClosing : token.kind ≠ .rightParen := by
      rcases isType with kind | kind <;> rw [kind] <;> decide
    have noComma : token.kind ≠ .comma := by
      rcases isType with kind | kind <;> rw [kind] <;> decide
    rw [reading, Cursor.parameters_eq, seen]
    simp only [if_neg noClosing, if_neg noComma, if_pos isType]
    rfl
  · have passed : cursor.skip .identifier = cursor.advance := by
      simp [Cursor.skip, seen, isName]
    have nothing : keep typed named token = [] := rfl
    rw [reading, passed, nothing, Reply.map_nil_append]
    rfl

/-- Where the automaton has no move, the loop stops with the error of the state. -/
theorem reading_stuck (seen : cursor.peek? = some token) (noClosing : token.kind ≠ .rightParen)
    (stuck : state.next token.kind = none) :
    state.reading cursor = ⟨.error state.refusal, cursor⟩ := by
  have noComma : token.kind ≠ .comma := by
    intro isComma
    rw [isComma] at stuck
    cases state <;> cases stuck
  have nameless : state = typed → token.kind ≠ .identifier := by
    rintro rfl isName
    rw [isName] at stuck
    cases stuck
  rw [reading_seen seen nameless, Cursor.parameters_eq, seen]
  simp only [if_neg noClosing, if_neg noComma]
  cases state with
  | expecting =>
      have untyped : ¬(token.kind = .intType ∨ token.kind = .charType) := by
        rintro (kind | kind) <;> rw [kind] at stuck <;> cases stuck
      exact if_neg untyped
  | typed => rfl
  | named => rfl

end

/-- The reply at the place where a walk has stopped. -/
def Walk.stop (walk : Walk) (cursor : Cursor) : Reply (List Token) :=
  match cursor.rest with
  | [] => ⟨.error .unclosedFunctionDeclaration, cursor⟩
  | token :: _ =>
    if token.kind = .semicolon then ⟨.error .unclosedFunctionDeclaration, cursor⟩
    else if token.kind = .rightParen then ⟨.ok walk.types, cursor.advance⟩
    else ⟨.error walk.final.refusal, cursor⟩

/-- A token that was kept before the walk comes first. -/
theorem Walk.map_stop (before : List Token) (later : Walk) (length : Nat) (cursor : Cursor) :
    (later.stop cursor).map (before ++ ·) =
      Walk.stop ⟨later.final, before ++ later.types, length⟩ cursor := by
  unfold Walk.stop
  split
  · rfl
  · split
    · rfl
    · split
      · rfl
      · rfl

theorem walk_of_stuck {state : ParameterState} {token : Token}
    (stuck : state.next token.kind = none) (rest : List Token) :
    state.walk (token :: rest) = ⟨state, [], 0⟩ := by
  simp [walk, stuck]

theorem walk_of_next {state after : ParameterState} {token : Token}
    (moves : state.next token.kind = some after) (rest : List Token) :
    state.walk (token :: rest) = ⟨(after.walk rest).final,
      keep state after token ++ (after.walk rest).types, (after.walk rest).length + 1⟩ := by
  simp [walk, moves]

/-- Up to its semicolon the loop reads what the automaton passes. -/
theorem reading_walk (state : ParameterState) (position : Nat) (tokens : List Token) :
    let bound := position + tokens.findIdx (·.kind == .semicolon)
    let walk := state.walk tokens
    state.reading ⟨position, tokens, bound⟩ =
      walk.stop ⟨position + walk.length, tokens.drop walk.length, bound⟩ := by
  induction tokens generalizing position state with
  | nil => exact reading_unseen state (by simp [Cursor.peek?])
  | cons token rest ih =>
      intro bound walk
      by_cases ends : token.kind = .semicolon
      · have stuck : state.next token.kind = none := by rw [ends, next_semicolon]
        have unseen : (⟨position, token :: rest, bound⟩ : Cursor).peek? = none := by
          simp [Cursor.peek?, bound, List.findIdx_cons, ends]
        rw [reading_unseen state unseen]
        simp [walk, walk_of_stuck stuck, Walk.stop, ends]
      · have counted : bound = position + 1 + rest.findIdx (·.kind == .semicolon) := by
          simp only [bound, List.findIdx_cons, beq_false_of_ne ends, cond_false]
          omega
        have seen : (⟨position, token :: rest, bound⟩ : Cursor).peek? = some token :=
          Cursor.peek?_eq_some_iff.mpr ⟨by simp only [counted]; omega, rest, rfl⟩
        cases moves : state.next token.kind with
        | none =>
            by_cases closes : token.kind = .rightParen
            · rw [reading_closing state seen closes]
              simp [walk, walk_of_stuck moves, Walk.stop, closes]
            · rw [reading_stuck seen closes moves]
              simp [walk, walk_of_stuck moves, Walk.stop, ends, closes]
        | some after =>
            have passed := ih after (position + 1)
            simp only [← counted] at passed
            have shape := walk_of_next moves rest
            have length : walk.length = (after.walk rest).length + 1 := congrArg Walk.length shape
            have place : position + walk.length = position + 1 + (after.walk rest).length := by
              omega
            rw [reading_next seen moves, place, length, List.drop_succ_cons]
            change Reply.map _ (after.reading ⟨position + 1, rest, bound⟩) = _
            rw [passed, Walk.map_stop _ _ walk.length, length, ← shape]

end ParameterState

namespace Cursor

variable {cursor : Cursor} {type name opening : Token} {more : List Token}

/-- The statement is what the walk comes to, terminated like every other one. -/
theorem statement_opening (isType : type.kind.isType = true) (isName : name.kind = .identifier)
    (opens : opening.kind = .leftParen) (shape : cursor.rest = type :: name :: opening :: more) :
    let walk := ParameterState.expecting.walk more
    let stop := walk.stop
      ⟨cursor.position + 3 + walk.length, more.drop walk.length, cursor.semicolonIndex⟩
    cursor.statement = terminated
      ⟨stop.outcome.map (.functionDeclaration name type ·),
        stop.cursor.withBound cursor.bound⟩ := by
  intro walk stop
  have clean : ∀ token ∈ [type, name, opening], token.kind ≠ .semicolon := by
    rintro token (_ | ⟨_, _ | ⟨_, _ | ⟨_, ⟨⟩⟩⟩⟩)
    · exact Kind.ne_of_member isType rfl
    · exact ne_of_eq_of_ne isName (by decide)
    · exact ne_of_eq_of_ne opens (by decide)
  have fence : cursor.semicolonIndex =
      cursor.position + 3 + more.findIdx (·.kind == .semicolon) := by
    have shapeTaken : cursor.rest = [type, name, opening] ++ more := shape
    exact (semicolonIndex_append shapeTaken clean).trans (Nat.add_assoc ..).symm
  have inSight : cursor.position + 2 < cursor.semicolonIndex := by omega
  have shapeFenced : (cursor.withBound cursor.semicolonIndex).rest =
      type :: name :: opening :: more := shape
  have seen : (cursor.withBound cursor.semicolonIndex).peek? = some type :=
    peek?_eq_some_iff.mpr ⟨Nat.lt_of_le_of_lt (Nat.le_add_right ..) inSight, _, shapeFenced⟩
  have walked := ParameterState.reading_walk .expecting (cursor.position + 3) more
  rw [← fence] at walked
  have read : (cursor.withBound cursor.semicolonIndex).statementBody =
      stop.map (.functionDeclaration name type ·) := by
    rw [statementBody, seen]
    simp only [isType, if_true]
    rw [declaration_opening isName opens shapeFenced inSight]
    exact congrArg (Reply.map fun types => Node.functionDeclaration name type types) walked
  rw [statement, read]
  rfl

/-- The declaration of a function is read as the automaton walks from its opening parenthesis on.
If the walk comes to the semicolon or to the end of the tokens, the declaration is not closed.  If
it comes to another token that it has no move for, that is where the statement fails, with the error
of the state.  If it comes to the closing parenthesis, a semicolon has to follow at once, and then
the statement declares a function with the types that the walk has kept. -/
theorem statement_walks_parameters (isType : type.kind.isType = true)
    (isName : name.kind = .identifier) (opens : opening.kind = .leftParen)
    (shape : cursor.rest = type :: name :: opening :: more) :
    let walk := ParameterState.expecting.walk more
    let place := cursor.position + 3 + walk.length
    let behind := more.drop walk.length
    ((∀ token ∈ behind.head?, token.kind = .semicolon) → cursor.statement =
      ⟨.error .unclosedFunctionDeclaration, ⟨place, behind, cursor.bound⟩⟩) ∧
    (∀ token ∈ behind.head?, token.kind ≠ .semicolon → token.kind ≠ .rightParen →
      cursor.statement = ⟨.error walk.final.refusal, ⟨place, behind, cursor.bound⟩⟩) ∧
    (∀ closing later, behind = closing :: later → closing.kind = .rightParen →
      ((∀ next ∈ later.head?, next.kind ≠ .semicolon) → cursor.statement =
        ⟨.error .missingSemicolon, ⟨place + 1, later, cursor.bound⟩⟩) ∧
      ∀ semicolon rest, later = semicolon :: rest → semicolon.kind = .semicolon →
        cursor.statement = ⟨.ok (.functionDeclaration name type walk.types),
          ⟨place + 2, rest, cursor.bound⟩⟩) := by
  intro walk place behind
  have read := statement_opening isType isName opens shape
  change cursor.statement = terminated ⟨(walk.stop ⟨place, behind, _⟩).outcome.map _,
    (walk.stop ⟨place, behind, _⟩).cursor.withBound _⟩ at read
  rw [read]
  refine ⟨?_, ?_, ?_⟩
  · intro ended
    cases found : behind with
    | nil => rfl
    | cons token later =>
        have ends := ended token (by rw [found]; rfl)
        simp [ParameterState.Walk.stop, ends, terminated, withBound, Except.map]
  · intro token here noSemicolon noClosing
    obtain ⟨later, found⟩ := List.head?_eq_some_iff.mp here
    simp [ParameterState.Walk.stop, found, noSemicolon, noClosing, terminated, withBound,
      Except.map]
  · intro closing later found closes
    have stopped : walk.stop ⟨place, behind, cursor.semicolonIndex⟩ =
        ⟨.ok walk.types, ⟨place + 1, later, cursor.semicolonIndex⟩⟩ := by
      simp [ParameterState.Walk.stop, found, closes, advance]
    rw [stopped]
    constructor
    · intro unended
      cases later with
      | nil => rfl
      | cons next rest => exact if_neg (unended next rfl)
    · rintro semicolon rest rfl ends
      exact if_pos ends

/-- A declaration with a name and a comma to spare, and one in which a comma is missing. -/
theorem statement_walks_parameters_each_way :
    let void := Token.ofText .voidType "void"
    let int := Token.ofText .intType "int"
    let char := Token.ofText .charType "char"
    let name := Token.identifier "f"
    let opening := Token.ofText .leftParen "("
    let ending := [Token.ofText .rightParen ")", Token.ofText .semicolon ";"]
    let read := [int, .identifier "a", .ofText .comma ",", .ofText .comma ",", char] ++ ending
    let refused := [int, .identifier "a", char] ++ ending
    (ofTokens (void :: name :: opening :: read)).statement =
        ⟨.ok (.functionDeclaration name void [int, char]), ⟨10, [], 10⟩⟩ ∧
      (ofTokens (int :: name :: opening :: refused)).statement =
        ⟨.error .adjacentArguments, ⟨5, char :: ending, 8⟩⟩ := by
  intro void int char name opening ending read refused
  have isVoid : void.kind.isType = true := rfl
  have isInt : int.kind.isType = true := rfl
  have isName : name.kind = .identifier := rfl
  have opens : opening.kind = .leftParen := rfl
  have startsRead : (ofTokens (void :: name :: opening :: read)).rest =
      void :: name :: opening :: read := rfl
  have startsRefused : (ofTokens (int :: name :: opening :: refused)).rest =
      int :: name :: opening :: refused := rfl
  obtain ⟨-, -, closed⟩ := statement_walks_parameters isVoid isName opens startsRead
  obtain ⟨-, stuck, -⟩ := statement_walks_parameters isInt isName opens startsRefused
  obtain ⟨-, complete⟩ := closed (.ofText .rightParen ")") [.ofText .semicolon ";"] rfl rfl
  exact ⟨complete (.ofText .semicolon ";") [] rfl rfl, stuck char rfl (by decide) (by decide)⟩

end Cursor

end CLike
