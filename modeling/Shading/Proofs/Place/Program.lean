import Shading.Proofs.Grammar.Source
import Shading.Proofs.Place.Source
import Shading.Proofs.Typing.Soundness

/-! Where the parts of an accepted program stand. -/
namespace Shading

/-- The statements of a declaration. -/
def Element.statements : Element → List Stmt
  | .definition _ _ body _ => body.nodes
  | .struct .. | .block .. | .global .. | .prototype .. => []

/-- The statements of a program. -/
def Program.statements (p : Program) : List Stmt := p.elements.flatMap Element.statements

/-- A place in a source after declarations that stand in it. -/
def Site.standing (source : String) : Site :=
    { ofSource source with follows := fun es => ∀ e ∈ es, e.LiesIn (.ofSource source) }

instance (source : String) : (Site.standing source).AllowsLocals :=
    ⟨fun _ => trivial, fun _ => trivial, fun _ _ _ => trivial⟩

instance (source : String) : (Site.standing source).AllowsGlobals :=
  ⟨fun he hes => List.forall_mem_cons.mpr ⟨he.ofSource, hes⟩, fun _ _ _ => trivial, fun _ => trivial⟩

namespace Program

variable {source : String} {kind : ShaderKind} {options : CompileOptions} {p : Program}

lemma elements_liesIn (h : (Program.parse source kind options).result = .ok p) : ∀ x ∈ p.elements,
    x.LiesIn (.ofSource source) := by
  obtain ⟨-, rfl⟩ := isRead_of_parse h
  have hplaced : (Grammar.finish source kind options).Placed (.standing source) :=
    Grammar.placed_finish trivial (List.forall_mem_nil _)
  exact fun x hx => hplaced.follows x (List.mem_reverse.mp hx)

lemma statements_stand (h : (Program.parse source kind options).result = .ok p) :
    ∀ s ∈ p.statements, s.Stands (.ofSource source) := by
  intro s hs
  obtain ⟨x, hx, hs⟩ := List.mem_flatMap.mp hs
  have hliesIn := elements_liesIn h x hx
  cases x with
  | struct | block | global | prototype => cases hs
  | definition f ps body span => exact hliesIn.2.1 s hs

/-- Statements in a row. In every block and in every case of a switch of an accepted program, a
statement neither starts nor ends after the one that follows it. It ends before that one starts
unless it ends with an `if` to which an `else` could have belonged. Such a statement goes on to the
end of the word after it, into the statement that follows. -/
theorem statements_in_order (h : (Program.parse source kind options).result = .ok p) :
    ∀ s ∈ p.statements, ∀ body ∈ s.bodies, body.IsChain fun a b =>
      a.span.start ≤ b.span.start ∧ a.span.stop ≤ b.span.stop ∧
      (a.isOpen = false → a.span.stop ≤ b.span.start) ∧
      (a.isOpen = true → b.isExpr = false → b.span.start < a.span.stop) := by
  intro s hs body hbody
  refine ((statements_stand h s hs).ordered body hbody).imp fun a b hab => ?_
  exact ⟨hab.start, hab.stop, hab.apart, hab.overlap⟩

/-- A switch with two statements in a case. -/
theorem statements_in_order_switch : ∃ p, (Program.parse
      "void main() \x7b int x = 1; switch (x) \x7b case 1: x = 2; if (x > 1) break; x++; default: ; \x7d while (x > 0) x--; \x7d" .fragment {}).result = .ok p ∧
    p.statements.flatMap (fun s => s.bodies.map (·.map fun t => (t.span.start, t.span.stop))) =
      [[(14, 24), (25, 88), (89, 107)], [(46, 52), (53, 72), (71, 75)], [(85, 86)]] ∧
    ∀ s ∈ p.statements, ∀ body ∈ s.bodies, body.IsChain fun a b =>
      a.span.start ≤ b.span.start ∧ a.span.stop ≤ b.span.stop ∧
      (a.isOpen = false → a.span.stop ≤ b.span.start) ∧
      (a.isOpen = true → b.isExpr = false → b.span.start < a.span.stop) := by
  refine Exists.imp (fun p hp => ⟨hp.1, hp.2, statements_in_order hp.1⟩) (exists_ok_of_map ?_)
  decide +kernel

/-- An `if` without an `else` reaches into the declaration after it. -/
theorem if_overlaps_next : ∃ p, (Program.parse "void main() { if (true) ; int x; }" .fragment {}).result = .ok p ∧
    ∃ s ∈ p.statements, ∃ body ∈ s.bodies, ¬ body.IsChain fun a b => a.span.stop ≤ b.span.start := by
  have hread : ∃ p, (Program.parse "void main() { if (true) ; int x; }" .fragment {}).result = .ok p ∧
      decide (∃ s ∈ p.statements, ∃ body ∈ s.bodies, ¬ body.IsChain fun a b =>
        a.span.stop ≤ b.span.start) = true :=
    exists_ok_of_map (by decide +kernel)
  exact hread.imp fun p hp => ⟨hp.1, of_decide_eq_true hp.2⟩

end Program
end Shading
