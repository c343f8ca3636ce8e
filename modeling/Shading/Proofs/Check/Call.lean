import Shading.Proofs.Check.Access

/-! A call is well typed: its arguments have the types of the parameters of the chosen function,
whose generic types are all bound to one choice. -/
namespace Shading

variable {n : Nat} {es : List Expr}

namespace Candidate

lemma better_eq_or (a b : Candidate) : better a b = a ∨ better a b = b := by
  unfold better
  split
  · exact .inr rfl
  · exact .inl rfl

lemma foldl_better_mem (k : Candidate) (ks : List Candidate) : ks.foldl better k ∈ k :: ks := by
  induction ks generalizing k with
  | nil => simp
  | cons j ks ih =>
    rw [List.foldl_cons]
    have hmem := ih (better k j)
    obtain h | h := better_eq_or k j <;> rw [h] at hmem ⊢ <;> grind

lemma mem_of_cheapest? {ks : List Candidate} {k : Candidate} (h : cheapest? ks = some k) : k ∈ ks := by
  cases ks with
  | nil => cases h
  | cons j ks =>
    obtain rfl := Option.some.inj h
    exact foldl_better_mem j ks

lemma bound?_eq_some {i : Nat} {parameters : List Ty} {k : Candidate}
    (h : bound? n parameters es i = some k) :
    k.function = n ∧ k.binding = some i ∧ parameters.mapM (Overload.bindGeneric i) = some k.parameters := by
  obtain ⟨types, htypes, h⟩ := Option.bind_eq_some_iff.mp h
  obtain ⟨cost, -, h⟩ := Option.bind_eq_some_iff.mp h
  obtain rfl := Option.some.inj h
  exact ⟨rfl, rfl, htypes⟩

/-- The parameters of a candidate are those of its function, with generic types bound if there are
any. -/
lemma of?_eq_some {f : Function} {k : Candidate} (h : of? n f es = some k) :
    k.function = n ∧ f.parameterTypes.length = es.length ∧
      ((∃ i, k.binding = some i ∧ f.parameterTypes.mapM (Overload.bindGeneric i) = some k.parameters) ∨
        (f.parameterTypes.any Ty.isGeneric = false ∧ k.binding = none ∧ k.parameters = f.parameterTypes)) := by
  unfold of? at h
  dsimp only at h
  split at h
  · cases h
  rename_i hlength
  rw [ne_eq, not_not] at hlength
  split at h
  · obtain ⟨i, -, hi⟩ := List.mem_filterMap.mp (mem_of_cheapest? h)
    obtain ⟨hn, hbinding, htypes⟩ := bound?_eq_some hi
    exact ⟨hn, hlength, .inl ⟨i, hbinding, htypes⟩⟩
  · rename_i hgeneric
    obtain ⟨cost, -, rfl⟩ := Option.map_eq_some_iff.mp h
    exact ⟨rfl, hlength, .inr ⟨by simpa using hgeneric, rfl, rfl⟩⟩

end Candidate

namespace Search

variable {s : Search} {k : Candidate}

lemma best_step (hs : s.best = some k) (c : Candidate) : (s.step c).best = some (k.better c) := by
  unfold step Candidate.better
  rw [hs]
  dsimp only
  split <;> rfl

lemma best_foldl (ks : List Candidate) : (ks.foldl step {}).best = Candidate.cheapest? ks := by
  have hfrom {s : Search} {k : Candidate} (hs : s.best = some k) :
      (ks.tail.foldl step s).best = some (ks.tail.foldl Candidate.better k) := by
    induction ks.tail generalizing s k with
    | nil => exact hs
    | cons c ks ih => exact ih (best_step hs c)
  cases ks with
  | nil => rfl
  | cons k ks => exact hfrom rfl

end Search

variable {types : List Ty}

namespace Overload

variable {i : Nat}

lemma isProper_bindGeneric {ty bound : Ty} (hty : ty.isProper = true ∨ ty.isGeneric = true)
    (h : bindGeneric i ty = some bound) : bound.isProper = true := by
  cases ty with
  | generic s =>
    have hchoices : ∀ t ∈ Ty.choices s, t.isProper = true := by simp [Ty.choices, Dim.all, Ty.isProper]
    exact hchoices bound (List.mem_of_getElem? h)
  | _ =>
    obtain rfl := Option.some.inj h
    simpa [Ty.isGeneric] using hty

lemma bindGeneric_of_not_isGeneric {ty : Ty} (h : ty.isGeneric = false) : bindGeneric i ty = some ty := by
  cases ty <;> first | rfl | cases h

/-- Binding fails for no choice that one generic type has, keeps the number of types and leaves no
generic one. -/
lemma mapM_eq_some {bound : List Ty} (h : types.mapM (bindGeneric i) = some bound) :
    bound.length = types.length ∧ (types.any Ty.isGeneric = true → i < 4) ∧
      ((∀ ty ∈ types, ty.isProper = true ∨ ty.isGeneric = true) → ∀ ty ∈ bound, ty.isProper = true) := by
  induction types generalizing bound with
  | nil =>
    rw [List.mapM_nil] at h
    obtain rfl := Option.some.inj h
    simp
  | cons ty types ih =>
    rw [List.mapM_cons] at h
    obtain ⟨b, hb, h⟩ := Option.bind_eq_some_iff.mp h
    obtain ⟨bs, hbs, h⟩ := Option.bind_eq_some_iff.mp h
    obtain rfl := Option.some.inj h
    obtain ⟨hlength, hlt, hproper⟩ := ih hbs
    refine ⟨by simp [hlength], fun hgeneric => ?_, fun htypes => ?_⟩
    · rw [List.any_cons, Bool.or_eq_true] at hgeneric
      obtain hty | hrest := hgeneric
      · cases ty <;> simp only [Ty.isGeneric, Bool.false_eq_true] at hty
        exact (List.getElem?_eq_some_iff.mp hb).1
      · exact hlt hrest
    · rw [List.forall_mem_cons] at htypes ⊢
      exact ⟨isProper_bindGeneric htypes.1 hb, hproper htypes.2⟩

lemma mapM_of_not_isGeneric (h : types.any Ty.isGeneric = false) :
    types.mapM (bindGeneric i) = some types := by
  induction types with
  | nil => rfl
  | cons ty types ih =>
    simp only [List.any_cons, Bool.or_eq_false_iff] at h
    simp [List.mapM_cons, bindGeneric_of_not_isGeneric h.1, ih h.2]

end Overload

/-- What a candidate says of the types of a call agrees with the signature of its function. -/
lemma Function.Sound.takes_of_candidate {f : Function} {k : Candidate} (hf : f.Sound)
    (h : Candidate.of? n f es = some k) :
    f.Takes k.parameters (Check.returnType f k.binding) ∧ k.parameters.length = es.length ∧
      (∀ ty ∈ k.parameters, ty.isProper = true) ∧ (Check.returnType f k.binding).isProper = true := by
  obtain ⟨-, hlength, ⟨i, hbinding, htypes⟩ | ⟨hgeneric, hbinding, htypes⟩⟩ := Candidate.of?_eq_some h
  · obtain ⟨hcount, hlt, hproper⟩ := Overload.mapM_eq_some htypes
    have hreturns : Overload.bindGeneric i f.returns = some (Check.returnType f k.binding) := by
      rw [hbinding]
      obtain hret | ⟨hret, hgeneric⟩ := hf.returns
      · have hplain := Ty.isGeneric_of_isProper hret
        rw [Overload.bindGeneric_of_not_isGeneric hplain]
        cases hty : f.returns <;> simp_all [Check.returnType, Ty.isGeneric]
      · have hi := hlt hgeneric
        cases hty : f.returns <;> simp_all [Check.returnType, Ty.isGeneric, Overload.bindGeneric,
          Ty.choices, Dim.all]
    have hret : f.returns.isProper = true ∨ f.returns.isGeneric = true := hf.returns.imp_right And.left
    exact ⟨⟨i, htypes, hreturns⟩, hcount.trans hlength, hproper hf.parameters,
      Overload.isProper_bindGeneric hret hreturns⟩
  · have hret : f.returns.isProper = true := by
      obtain hret | ⟨-, hany⟩ := hf.returns
      · exact hret
      · simp [hgeneric] at hany
    have hplain := Ty.isGeneric_of_isProper hret
    have hreturns : Check.returnType f k.binding = f.returns := by
      rw [hbinding]
      cases hty : f.returns <;> simp_all [Check.returnType]
    rw [htypes, hreturns]
    refine ⟨⟨0, Overload.mapM_of_not_isGeneric hgeneric,
      Overload.bindGeneric_of_not_isGeneric hplain⟩, hlength, ?_, hret⟩
    intro ty hty
    obtain h | h := hf.parameters ty hty
    · exact h
    · have := List.any_eq_false.mp hgeneric ty hty
      simp [h] at this

namespace Check

variable {o : View} {c : Context}

lemma passArgument_ensures {e : Expr} {ty : Ty} {out : Bool} (he : e.Good o c.declared)
    (hty : ty.isProper = true) :
    Ensures o c (passArgument e ty out) fun e' d => e'.Good o d ∧ e'.ty = ty := by
  unfold passArgument
  refine .ite (fun _ => ?_) fun _ => coerce_ensures he hty
  refine .bind .reportIf fun _ c1 hd1 _ hsame => ?_
  refine .bind assignable_ensures fun _ c2 hd2 _ _ => ?_
  exact .pure ⟨he.mono (hd1.trans hd2), by simpa using hsame⟩

lemma passArguments_ensures {f : Function} (hes : ∀ e ∈ es, e.Good o c.declared)
    (htypes : ∀ ty ∈ types, ty.isProper = true) (hlength : types.length = es.length)
    (hparameters : f.parameters.length = es.length) :
    Ensures o c (passArguments f types es) fun es' d => (∀ e ∈ es', e.Good o d) ∧ es'.map Expr.ty = types := by
  have hzip : ((es.zip types).zip (f.parameters.map Parameter.isOut)).map (fun x => x.1.2) = types := by
    change List.map (Prod.snd ∘ Prod.fst) _ = types
    rw [← List.map_map, List.map_fst_zip (by simp [hlength, hparameters]), List.map_snd_zip (by omega)]
  unfold passArguments
  refine .weaken (.mapM_typed (fun x => x.1.2) ?_) fun es' d _ h => ⟨h.1, by rw [h.2, hzip]⟩
  rintro ⟨⟨e, ty⟩, out⟩ hmem c' hd
  have hpair := (List.of_mem_zip hmem).1
  exact passArgument_ensures ((hes e (List.of_mem_zip hpair).1).mono hd) (htypes ty (List.of_mem_zip hpair).2)

lemma noteCall_ensures {span : Span} : Ensures o c (noteCall n span) fun _ d => d.callable n := by
  unfold noteCall
  cases hbase : c.functions.isBase n with
  | true =>
    refine .modify (fun h => ?_) ?_ ?_ <;> rw [hbase, if_pos rfl]
    · exact h
    · exact .inl hbase
  | false =>
    have hgrows : c.declared ≤ Context.declared { c with calls := (n, span) :: c.calls } :=
      ⟨⟨fun h => h, (Declared.Grows.refl c.declared).function,
        fun h => h.imp_right fun ⟨s, hs⟩ => ⟨s, List.mem_cons_of_mem _ hs⟩⟩, fun h => h⟩
    refine .modify (fun h => ?_) ?_ ?_ <;> simp only [hbase, Bool.false_eq_true, if_false]
    · refine ⟨⟨h.variable_, h.base, h.items, fun scope hscope b hb =>
        (h.scopes scope hscope b hb).grow hgrows.toGrows⟩, fun hv => ?_⟩
      exact ⟨(h.regular hv).variable_, (h.regular hv).function, (h.regular hv).scopes⟩
    · exact hgrows
    · exact .inr ⟨span, List.mem_cons_self⟩

lemma call_ensures {name : String} {overloads : List Nat} {span : Span}
    (hoverloads : (Symbol.functions overloads).Sound c.declared) (hes : ∀ e ∈ es, e.Good o c.declared) :
    Ensures o c (call name overloads es span) fun e d => e.Good o d := by
  unfold call
  have hpoison : es.any Expr.isPoisoned = false := by
    rw [List.any_eq_false]
    exact fun e he => by simp [(hes e he).1.not_isPoisoned]
  simp only [hpoison, Bool.false_eq_true, if_false]
  refine .get_bind fun hc => ?_
  split
  · exact .report_bind
  · exact .report_bind
  rename_i k hresolution
  have hk : k ∈ candidates c overloads es := by
    unfold Resolution.of at hresolution
    dsimp only at hresolution
    rw [Search.best_foldl] at hresolution
    split at hresolution
    · cases hresolution
    · split at hresolution
      · cases hresolution
      · obtain rfl := Resolution.chosen.inj hresolution
        exact Candidate.mem_of_cheapest? ‹_›
  obtain ⟨n, hn, hcandidate⟩ := List.mem_filterMap.mp hk
  obtain ⟨f, hf⟩ := hoverloads n hn
  rw [Context.functionAt_of_get? hf] at hcandidate
  obtain ⟨hfunction, hlength, -⟩ := Candidate.of?_eq_some hcandidate
  obtain ⟨htakes, hcount, hproper, hreturns⟩ := (hc.function hf).takes_of_candidate hcandidate
  simp only [hfunction, Context.functionAt_of_get? hf]
  have hparameters : f.parameters.length = es.length := by simpa [Function.parameterTypes] using hlength
  refine .bind (passArguments_ensures hes hproper hcount hparameters) fun es' c1 hd1 _ hpost => ?_
  obtain ⟨hes', htypes⟩ := hpost
  refine .bind noteCall_ensures fun _ c2 hd2 _ hcallable => ?_
  obtain ⟨b, hb, -⟩ := (hd1.trans hd2).function hf
  have htakes' : Function.Takes { f with defined := b } (es'.map Expr.ty) (returnType f k.binding) := by
    rw [htypes]
    exact htakes
  exact .pure ⟨Expr.wellTyped_iff.mpr ⟨hreturns, ⟨hcallable, _, hb, htakes'⟩, fun e he => (hes' e he).1.mono hd2⟩,
    fun hv => Expr.areRegular_iff.mpr fun e he => (hes' e he).2 hv⟩

end Check
end Shading
