import DeclCheck.Proofs.Parser.Contents
import DeclCheck.Proofs.Parser.SingleItem

/-!
# Expressions survive printing

The compact text of an expression that was read, with a semicolon after it, is read
without any error as that expression again.  No two tokens of the text run together,
the tree is recovered without parentheses of its own, and what the first reading paid
for its nesting is enough for the second.
-/

namespace DeclCheck.Parser

open Grammar

/-- An expression of the grammar whose tokens have texts, and whose cost fits into the
budget, is read back from its own text. -/
theorem parse_text_of_derives {tokens : List Token} {expr : Expr}
    (hexpr : DerivesExpr .expression tokens expr)
    (hspelled : ∀ token ∈ tokens, token.kind.IsSpelled)
    (hbudget : constructCost + expr.nesting ≤ nestingBudget) :
    let again := parse (expr.text ++ ";").toList
    again.errors = [] ∧
      ∃ span copy, again.program.items = [.expression span copy] ∧
        copy.bare = expr.bare := by
  obtain ⟨hkinds, hlexical⟩ := hexpr.lex_text hspelled
  obtain ⟨front, placed, stop, copy, htokens, hfront, hcopy, hsame⟩ :=
    hexpr.exists_placed (hkinds.trans (List.nil_append _).symm)
  obtain rfl := List.map_eq_nil_iff.mp hfront
  have hcost : copy.nesting = expr.nesting := by
    rw [← Expr.nesting_bare copy, hsame, Expr.nesting_bare]
  have hitems := items_of_affordable leads_evaluation hcopy stop (List.forall_mem_nil _)
    (endSpan (expr.text ++ ";").toList) (by rwa [hcost])
  intro again
  have hagain : again = ⟨⟨[.expression (copy.span.cover stop) copy]⟩, []⟩ :=
    parse_of_items hlexical (htokens ▸ hitems)
  rw [hagain]
  exact ⟨rfl, _, copy, rfl, hsame⟩

/-- Every expression that stands in a program, at any depth, is read back from its
own text, whatever else the source of the program holds. -/
theorem parse_text_of_within {source : List Char} {item : Item} {site node : Expr}
    (hitem : item ∈ (parse source).program.items) (hsite : item.HasSite site)
    (hnode : site.Within node) :
    let again := parse (node.text ++ ";").toList
    again.errors = [] ∧
      ∃ span copy, again.program.items = [.expression span copy] ∧
        copy.bare = node.bare := by
  have hread := readAmong_of_parse hitem hsite hnode
  obtain ⟨phrase, hphrase, hderives⟩ := hread.phrase
  apply parse_text_of_derives hderives _ hread.budget
  intro token htoken
  exact isSpelled_of_mem_goodTokens (hphrase.subset htoken)

/-- A factor is read back although a character before it starts no token and the
statement after it cannot be read. -/
theorem parse_text_of_within_damaged :
    let source := "int f(){y=@-a*(b-1);if;}".toList
    (parse source).errors.length = 2 ∧
      ∃ item ∈ (parse source).program.items, ∃ site node,
        item.HasSite site ∧ site.Within node ∧ node.text = "-a*(b-1)" ∧
        let again := parse (node.text ++ ";").toList
        again.errors = [] ∧
          ∃ span copy, again.program.items = [.expression span copy] ∧
            copy.bare = node.bare := by
  intro source
  have hfound : ∃ item ∈ (parse source).program.items, ∃ site ∈ item.sites,
      ∃ node ∈ site.subexpressions, node.text = "-a*(b-1)" := by decide +kernel
  obtain ⟨item, hitem, site, hmem, node, hinside, htext⟩ := hfound
  have hsite : item.HasSite site := Item.mem_sites_iff.mp hmem
  have hnode : site.Within node := Expr.mem_subexpressions_iff.mp hinside
  exact ⟨by decide +kernel, item, hitem, site, node, hsite, hnode, htext,
    parse_text_of_within hitem hsite hnode⟩

end DeclCheck.Parser
