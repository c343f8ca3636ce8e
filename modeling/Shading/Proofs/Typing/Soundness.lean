import Shading.Proofs.Grammar.Source

/-! Programs that are accepted are well typed. -/
namespace Shading.Program

lemma exists_ok_of_map {ε α β : Type} {r : Except ε α} {f : α → β} {b : β} (h : r.toOption.map f = some b) :
    ∃ a, r = .ok a ∧ f a = b := by
  cases r with
  | error e => cases h
  | ok a => exact ⟨a, rfl, Option.some.inj h⟩

lemma Sound.nodes {p : Program} (h : p.Sound) : ∀ e ∈ p.nodes, e.ty.isProper = true ∧ e.Typed p.declared := by
  intro e he
  obtain ⟨x, hx, he⟩ := List.mem_flatMap.mp he
  have hwell := h.elements x hx
  cases x with
  | struct | block | prototype => simp [Element.nodes] at he
  | global n i span =>
    obtain ⟨v, -, hi⟩ := hwell
    obtain ⟨root, hroot, he⟩ := List.mem_flatMap.mp he
    exact (hi root (Option.mem_toList.mp hroot)).1 e he
  | definition f ps body span =>
    obtain ⟨g, -, -, -, hbody, -⟩ := hwell
    obtain ⟨st, hst, he⟩ := List.mem_flatMap.mp he
    obtain ⟨root, hroot, he⟩ := List.mem_flatMap.mp he
    exact (hbody st hst).2 root hroot e he

/-- Type soundness of reading. In an accepted program every node of every expression has a proper
type and keeps the rule of its constructor, and every declaration is well typed: initializers have
the types of their variables, bodies return what their functions promise, and what is called has a
body or is part of the language. -/
theorem wellTyped_of_parse {source : String} {kind : ShaderKind} {options : CompileOptions} {p : Program}
    (h : (Program.parse source kind options).result = .ok p) :
    (∀ e ∈ p.nodes, e.ty.isProper = true ∧ e.Typed p.declared) ∧ ∀ x ∈ p.elements, x.WellTyped p.declared :=
  ⟨(sound_of_parse h).nodes, (sound_of_parse h).elements⟩

/-- A source with a call, a swizzle, an index and a vector made of one number. -/
theorem wellTyped_of_parse_flip : ∃ p, (Program.parse
      "ivec2 flip(ivec2 v) { return v.yx * 2; } void main() { int x = flip(ivec2(1))[1]; if (x > 0) discard; }"
      .fragment {}).result = .ok p ∧ p.nodes.length = 12 ∧ ∀ e ∈ p.nodes, e.Typed p.declared := by
  refine Exists.imp (fun p hp => ⟨hp.1, hp.2, fun e he => ((wellTyped_of_parse hp.1).1 e he).2⟩)
    (exists_ok_of_map ?_)
  decide +kernel

end Shading.Program
