import DeclCheck.Proofs.Grammar

/-!
# First tokens

Every phrase but an empty list has a first token, and it tells the phrases apart:
one token of look-ahead is enough to choose the rule.
-/

namespace DeclCheck.Grammar

/-- The kinds of tokens that an expression can begin with. -/
def startsExpr : TokenKind → Bool
  | .integer _ => true
  | .float _ => true
  | .string _ => true
  | .identifier _ => true
  | .keyword word => word = .trueWord || word = .falseWord
  | .symbol mark => mark = .openParen || mark = .minus || mark = .bang
  | _ => false

/-- The kinds of tokens that a statement can begin with. -/
def startsStmt : TokenKind → Bool
  | .type _ => true
  | .keyword word => word ≠ .elseWord
  | .symbol .openBrace => true
  | kind => startsExpr kind

theorem DerivesExpr.head :
    ∀ {cls : ExprClass} {tokens : List Token} {expr : Expr},
      DerivesExpr cls tokens expr →
      ∃ token rest, tokens = token :: rest ∧ startsExpr token.kind = true
  | _, _, _, .integer _ _ => ⟨_, _, rfl, rfl⟩
  | _, _, _, .float _ _ => ⟨_, _, rfl, rfl⟩
  | _, _, _, .string _ _ => ⟨_, _, rfl, rfl⟩
  | _, _, _, .boolean _ value => ⟨_, _, rfl, by cases value <;> rfl⟩
  | _, _, _, .identifier _ _ => ⟨_, _, rfl, rfl⟩
  | _, _, _, .emptyCall _ _ _ _ => ⟨_, _, rfl, rfl⟩
  | _, _, _, .call _ _ _ _ _ => ⟨_, _, rfl, rfl⟩
  | _, _, _, .paren _ _ _ => ⟨_, _, rfl, rfl⟩
  | _, _, _, .ofPrimary hprimary => hprimary.head
  | _, _, _, .unary _ op _ => ⟨_, _, rfl, by cases op <;> rfl⟩
  | _, _, _, .ofOperand _ hoperand => hoperand.head
  | _, _, _, .binary _ _ hleft _ => by
      obtain ⟨token, rest, rfl, hstarts⟩ := hleft.head
      exact ⟨token, _, rfl, hstarts⟩
  | _, _, _, .ofChain hchain => hchain.head
  | _, _, _, .assign _ _ _ _ => ⟨_, _, rfl, rfl⟩

theorem DerivesArgs.head {tokens : List Token} {args : List Expr}
    (hargs : DerivesArgs tokens args) :
    ∃ token rest, tokens = token :: rest ∧ startsExpr token.kind = true := by
  cases hargs with
  | last hexpr => exact hexpr.head
  | more comma hexpr hrest =>
      obtain ⟨token, rest, rfl, hstarts⟩ := hexpr.head
      exact ⟨token, _, rfl, hstarts⟩

theorem DerivesEvaluation.head {stop : Span} {tokens : List Token} {expr : Expr}
    (heval : DerivesEvaluation stop tokens expr) :
    ∃ token rest, tokens = token :: rest ∧ startsExpr token.kind = true := by
  cases heval with
  | intro hexpr =>
      obtain ⟨token, rest, rfl, hstarts⟩ := hexpr.head
      exact ⟨token, _, rfl, hstarts⟩

theorem startsStmt_of_startsExpr {kind : TokenKind}
    (hstarts : startsExpr kind = true) : startsStmt kind = true := by
  cases kind with
  | keyword word => cases word <;> simp_all [startsExpr, startsStmt]
  | symbol mark => cases mark <;> simp_all [startsExpr, startsStmt]
  | _ => simp_all [startsExpr, startsStmt]

theorem DerivesStmt.head {tokens : List Token} {stmt : Stmt}
    (hstmt : DerivesStmt tokens stmt) :
    ∃ token rest, tokens = token :: rest ∧ startsStmt token.kind = true := by
  cases hstmt with
  | declare hdecl => cases hdecl with | intro => exact ⟨_, _, rfl, rfl⟩
  | evaluate stop hexpr =>
      obtain ⟨token, rest, htokens, hstarts⟩ := hexpr.head
      exact ⟨token, rest, htokens, startsStmt_of_startsExpr hstarts⟩
  | nest hblock => cases hblock with | intro => exact ⟨_, _, rfl, rfl⟩
  | _ => exact ⟨_, _, rfl, rfl⟩

theorem DerivesItem.head {tokens : List Token} {item : Item}
    (hitem : DerivesItem tokens item) :
    ∃ token rest, tokens = token :: rest ∧ startsStmt token.kind = true := by
  cases hitem with
  | global hdecl => cases hdecl with | intro => exact ⟨_, _, rfl, rfl⟩
  | function => exact ⟨_, _, rfl, rfl⟩
  | expression stop hexpr =>
      obtain ⟨token, rest, htokens, hstarts⟩ := hexpr.head
      exact ⟨token, rest, htokens, startsStmt_of_startsExpr hstarts⟩

end DeclCheck.Grammar
