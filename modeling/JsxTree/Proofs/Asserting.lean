import JsxTree.Proofs.Limits
import JsxTree.Proofs.RuleContract

/-! Assertions. A parser that checks them goes along with one that does not, step for step, up to the first that fails; and in
a parse none does, whether it comes to a tree or to an error. -/
namespace JsxTree

open JsxTree.Parser

def asserted (on : Bool) : Pairing where
  rel _ p q := q.asserting = false ∧ p = { q with asserting := on }
  failing _ p q := q.asserting = false ∧ p = { q with asserting := on }
  shared _ := True
  early h := on = true ∧ h = .misshapen
  ready _ := True
  looked _ _ := trivial
  abreast _ _ _ h := h.2 ▸ ⟨rfl, rfl, rfl, rfl, rfl⟩
  current _ _ _ h := h.2 ▸ ⟨rfl, h.1, rfl⟩
  peek _ _ _ h := h.2 ▸ ⟨rfl, h.1, rfl⟩
  advance _ _ _ h := h.2 ▸ ⟨rfl, h.1, rfl⟩
  readText _ _ _ h := h.2 ▸ ⟨rfl, h.1, rfl⟩
  setMode _ _ _ _ h := h.2 ▸ ⟨h.1, rfl⟩
  unexpected := by
    rintro b p q ⟨released, rfl⟩ - -
    obtain ⟨e, s, -, -, runs⟩ := unexpectedOf q.scanner
    exact ⟨e, _, _, runs _ _ _, runs _ _ _, ⟨released, rfl⟩, trivial⟩
  mismatched _ _ := trivial
  enter := by
    rintro b p q ⟨released, rfl⟩
    by_cases full : q.config.maxDepth ≤ q.depth
    · rw [enterFull full, enterFull (p := { q with asserting := on }) full]
      exact .both ⟨released, rfl⟩ fun _ _ => trivial
    · have room := Nat.lt_of_not_le full
      rw [enterRoom room, enterRoom (p := { q with asserting := on }) room]
      exact .same ⟨released, rfl⟩
  leave _ _ _ _ _ _ h := h.2 ▸ ⟨h.1, rfl⟩
  fails _ _ _ := id
  failingMode _ _ _ _ h := h.2 ▸ ⟨h.1, rfl⟩
  asserts := by
    rintro b p q claim _ ⟨released, rfl⟩
    rw [assertReleased released, assertEq]
    split
    · rename_i failed
      exact .alone ⟨failed.1, rfl⟩
    · exact .same ⟨released, rfl⟩
  failingLeave _ _ _ _ _ _ h := h.2 ▸ ⟨h.1, rfl⟩

namespace Parser

variable {source : String} {config : Config} {file : Option String} {p p' : Parser}

theorem afterReleased (k : Construct) (released : p.asserting = false) : (p.after k).asserting = false := by
  have run := Grammar.pairedWithin (w := asserted false) (p.scanner.cursor.rest.length + 1) k
    (p := p) (q := p) ⟨released, by rw [← released]⟩
  change Matched _ _ _ _ (rule k p) (rule k p) at run
  unfold after
  generalize rule k p = r at *
  cases run with
  | same related => exact related.1
  | both related => exact related.1
  | alone raised => cases raised.1

theorem Step.released (step : Step p p') (released : p.asserting = false) : p'.asserting = false := by
  cases step with
  | scanner | enter | leave => exact released
  | rule k => exact afterReleased k released

theorem Reachable.released (h : Reachable source config file p) : p.asserting = false := by
  induction h with
  | start => rfl
  | step _ step ih => exact step.released ih
  | rewind _ _ now => exact now

end Parser

theorem assertingSame (source : String) (config : Config) (file : Option String) :
    parseAsserting source config file = parse source config file := by
  have stands := Grammar.startStands source config file
  have whole := Grammar.meetsWholeExpression (p := { Parser.start source config file with asserting := true })
    ⟨stands.config, stands.depth, stands.scanner⟩
  have run := @pairedWholeExpression (asserted true) { Parser.start source config file with asserting := true }
    (Parser.start source config file) ⟨rfl, rfl⟩
  unfold parse parseAsserting
  unfold Meets at whole
  generalize wholeExpression { Parser.start source config file with asserting := true } = left at *
  generalize wholeExpression (Parser.start source config file) = right at *
  cases run with
  | same | both => rfl
  | alone raised =>
      obtain ⟨-, rfl⟩ := raised
      exact whole.elim

/-- A parse comes to a tree with well placed nodes or to an error. No assertion fails on the way: no node is completed as
another kind than it was opened as, and none ends before it starts. -/
theorem parseWellPlaced (source : String) (config : Config) (file : Option String) :
    (match parse source config file with
    | .ok n => ∀ m ∈ n.preorder, WellPlaced source file m
    | .error h => ∃ e, h = .error e) ∧
    parseAsserting source config file = parse source config file := by
  refine ⟨?_, assertingSame source config file⟩
  have read := Grammar.parseReads source config file
  cases outcome : parse source config file with
  | ok n => exact treeWellPlaced outcome
  | error h =>
      rw [outcome] at read
      cases h with
      | error e => exact ⟨e, rfl⟩
      | exhausted => exact read.elim
      | misshapen => exact read.elim

end JsxTree
