import Shading.Proofs.Spirv.Folding

/-! The remainder of signed numbers. Between literals it is computed while a program is read and has
the sign of the dividend; otherwise it is an instruction, and has the sign of the divisor. The two
are the same if the division leaves nothing, or if both operands are on the same side of zero. -/
namespace Shading

/-- Both conventions for the remainder give the same. -/
def RemaindersMeet (a b : Int) : Prop := b ∣ a ∨ (0 < a ↔ 0 < b)

instance (a b : Int) : Decidable (RemaindersMeet a b) := by
  unfold RemaindersMeet
  infer_instance

/-- The remainder with the sign of the divisor, from the one with the sign of the dividend. -/
lemma fmod_eq_ite (a b : Int) : a.fmod b = if RemaindersMeet a b then a.tmod b else a.tmod b + b := by
  rw [Int.fmod_eq_tmod]
  unfold RemaindersMeet
  by_cases hdvd : b ∣ a
  · simp [hdvd]
  · have ha : a ≠ 0 := by
      rintro rfl
      exact hdvd (Int.dvd_zero b)
    simp only [hdvd, if_false, false_or]
    split <;> split <;> split <;> omega

lemma fmod_eq_tmod_iff {a b : Int} (hb : b ≠ 0) : a.fmod b = a.tmod b ↔ RemaindersMeet a b := by
  rw [fmod_eq_ite]
  by_cases h : RemaindersMeet a b
  · simp [h]
  · rw [if_neg h]
    exact iff_of_false (by omega) h

namespace Literal

variable {s : Scalar} {a b : Int}

lemma remainder_signed (hs : s.kind = .signed) (ha : s.Stores a) (hb : s.Stores b) :
    remainder s a b = a.tmod b := by
  have hne : s.kind ≠ .unsigned := by simp [hs]
  rw [remainder, if_pos hs, BitVec.toInt_srem, toInt_word hne ha, toInt_word hne hb]

lemma stores_tmod (hs : s.kind = .signed) (ha : s.Stores a) (hb : s.Stores b) : s.Stores (a.tmod b) := by
  rw [← remainder_signed hs ha hb, remainder, if_pos hs, Scalar.Stores, if_neg (by simp [hs])]
  exact ⟨BitVec.le_toInt _, BitVec.toInt_lt⟩

lemma stores_fmod (hs : s.kind = .signed) (ha : s.Stores a) (hb : s.Stores b) : s.Stores (a.fmod b) := by
  have hne : s.kind ≠ .unsigned := by simp [hs]
  rw [← toInt_word hne ha, ← toInt_word hne hb, ← BitVec.toInt_smod, Scalar.Stores, if_neg hne]
  exact ⟨BitVec.le_toInt _, BitVec.toInt_lt⟩

end Literal

namespace Spirv

variable {t : Scalar} {a b : Int} {lspan rspan span : Span}

lemma Builder.Tabled.empty : Builder.Tabled {} := ⟨by simp, by simp, by simp⟩

lemma Builder.Distinct.empty : Builder.Distinct [] {} :=
    ⟨Nat.le_refl 1, List.nodup_nil, fun _ hx => absurd hx List.not_mem_nil⟩

instance : Inhabited Setting :=
  ⟨⟨{ kind := .fragment, options := {}, types := .initial, «variables» := #[],
      functions := { base := #[] }, scopes := {}, elements := [] }, .v10⟩⟩

/-- Operands of a signed remainder that has a meaning. -/
structure Divides (t : Scalar) (a b : Int) : Prop where
  signed : t.kind = .signed
  storesLeft : t.Stores a
  storesRight : t.Stores b
  nonzero : b ≠ 0
  fits : ¬ (a = -2 ^ 31 ∧ b = -1)

namespace Divides

variable (h : Divides t a b)
include h

lemma eval? : Op.eval? .sMod [.word (Literal.word a), .word (Literal.word b)] =
    some (.word (Literal.word (a.fmod b))) := by
  have hne : t.kind ≠ .unsigned := by simp [h.signed]
  have hzero : Literal.word b ≠ 0 := Literal.word_ne_zero h.storesRight h.nonzero
  have hfits : ¬ (Literal.word a = .intMin 32 ∧ Literal.word b = -1) := by
    rintro ⟨ha, hb⟩
    have ha' : a = -2 ^ 31 := by rw [← Literal.toInt_word hne h.storesLeft, ha]; decide
    have hb' : b = -1 := by rw [← Literal.toInt_word hne h.storesRight, hb]; decide
    exact h.fits ⟨ha', hb'⟩
  have hmod : (Literal.word a).smod (Literal.word b) = Literal.word (a.fmod b) := by
    rw [← Literal.word_toInt ((Literal.word a).smod _), BitVec.toInt_smod, Literal.toInt_word hne h.storesLeft,
      Literal.toInt_word hne h.storesRight]
  rw [Op.eval?, if_neg (not_or.mpr ⟨hzero, hfits⟩), hmod]

lemma foldBinary (c : Context) :
    (Check.foldBinary .rem (.literal (.int a) (.scalar t) lspan)
    (.literal (.int b) (.scalar t) rspan) (.scalar t) span c).1 =
      some (.literal (.int (a.tmod b)) (.scalar t) span) := by
  have hv : Literal.binaryInt .rem t a b = .value (.int (a.tmod b)) := by
    rw [Literal.binaryInt, if_neg h.nonzero, Literal.remainder_signed h.signed h.storesLeft h.storesRight]
  unfold Check.foldBinary
  dsimp only [Literal.binary]
  rw [hv]
  rfl

lemma yields {s : Setting} {builder : Builder} (hb : builder.Tabled) :
    Build.Yields s builder (.binary .rem (.literal (.int a) (.scalar t) lspan)
    (.literal (.int b) (.scalar t) rspan) (.scalar t) span)
      (.word (Literal.word (a.fmod b))) := by
  have hinteger : t.isInteger = true := by simp [Scalar.isInteger, h.signed]
  have hcode : Build.arithmeticOp? .rem t.kind = some .sMod := by rw [h.signed]; rfl
  refine Build.yields_binary (.scalar t) hb (.inl rfl) hinteger hinteger rfl rfl (fun x y => ?_) rfl h.eval?
  exact Build.arithmetic_integers hinteger hcode

/-- The instruction computes the same as the literal if and only if the conventions meet. -/
lemma agree_iff : Build.Agree
      (.binary .rem (.literal (.int a) (.scalar t) lspan) (.literal (.int b) (.scalar t) rspan) (.scalar t) span)
      (.literal (.int (a.tmod b)) (.scalar t) span) ↔ RemaindersMeet a b := by
  have hinteger : t.isInteger = true := by simp [Scalar.isInteger, h.signed]
  have hliteral {s : Setting} {builder : Builder} (hb : builder.Tabled) :
      Build.Yields s builder (.literal (.int (a.tmod b)) (.scalar t) span) (.word (Literal.word (a.tmod b))) :=
    Build.computes_constant hb rfl (Build.scalar_kind_ne_float hinteger)
  rw [← fmod_eq_tmod_iff h.nonzero]
  constructor
  · intro hagree
    -- any state will do
    obtain ⟨d, hinstruction, hconstant⟩ := hagree default [] {} .empty .empty
    have hwords : Datum.word (Literal.word (a.fmod b)) = .word (Literal.word (a.tmod b)) :=
      ((hinstruction _).mp (h.yields .empty)).trans ((hconstant _).mp (hliteral .empty)).symm
    exact (Literal.word_inj (Literal.stores_fmod h.signed h.storesLeft h.storesRight)
      (Literal.stores_tmod h.signed h.storesLeft h.storesRight)).mp (Datum.word.inj hwords)
  · intro heq
    refine Build.agree_of_yields (Build.isStraight_binary (.inl rfl)) (Build.isStraight_literal _ _ _) ?_
    exact ⟨.word (Literal.word (a.tmod b)), fun s builder hb => ⟨heq ▸ h.yields hb, hliteral hb⟩⟩

end Divides

/-- A signed remainder between literals is left as one with the sign of the dividend, and its
instruction computes one with the sign of the divisor. These are the same if and only if the
division leaves nothing or the operands have the same sign; otherwise they differ by the divisor. -/
theorem signed_remainder_agrees_iff (h : Divides t a b) (c : Context) :
    (Check.foldBinary .rem (.literal (.int a) (.scalar t) lspan)
      (.literal (.int b) (.scalar t) rspan) (.scalar t) span c).1 =
      some (.literal (.int (a.tmod b)) (.scalar t) span) ∧
    (∀ (s : Setting) (builder : Builder), builder.Tabled → Build.Yields s builder
      (.binary .rem (.literal (.int a) (.scalar t) lspan) (.literal (.int b) (.scalar t) rspan) (.scalar t) span)
      (.word (Literal.word (if RemaindersMeet a b then a.tmod b else a.tmod b + b)))) ∧
    (Build.Agree (.binary .rem (.literal (.int a) (.scalar t) lspan)
      (.literal (.int b) (.scalar t) rspan) (.scalar t) span)
      (.literal (.int (a.tmod b)) (.scalar t) span) ↔ RemaindersMeet a b) := by
  refine ⟨h.foldBinary c, fun s builder hb => ?_, h.agree_iff⟩
  rw [← fmod_eq_ite]
  exact h.yields hb

/-- Both operands are negative. -/
theorem signed_remainder_agrees_negative : Divides .int (-7) (-3) ∧ RemaindersMeet (-7) (-3) ∧
    Build.Agree (.binary .rem (.literal (.int (-7)) (.scalar .int) (.point 0))
      (.literal (.int (-3)) (.scalar .int) (.point 1)) (.scalar .int)
      (.point 0)) (.literal (.int (-1)) (.scalar .int) (.point 0)) := by
  have hdivides : Divides .int (-7) (-3) := ⟨rfl, by decide, by decide, by decide, by decide⟩
  exact ⟨hdivides, by decide, (signed_remainder_agrees_iff hdivides (.initial .fragment {})).2.2.mpr (by decide)⟩

/-- A negative number by a positive one: what is left is `-1`, and the instruction computes `2`. -/
theorem signed_remainder_differs :
    (Check.foldBinary .rem (.literal (.int (-7)) (.scalar .int) (.point 0))
      (.literal (.int 3) (.scalar .int) (.point 1)) (.scalar .int)
      (.point 0) (.initial .fragment {})).1 = some (.literal (.int (-1)) (.scalar .int) (.point 0)) ∧
    Build.Yields default {} (.binary .rem (.literal (.int (-7)) (.scalar .int) (.point 0))
      (.literal (.int 3) (.scalar .int) (.point 1))
      (.scalar .int) (.point 0)) (.word 2) ∧
    ¬ Build.Agree (.binary .rem (.literal (.int (-7)) (.scalar .int) (.point 0))
      (.literal (.int 3) (.scalar .int) (.point 1)) (.scalar .int)
      (.point 0)) (.literal (.int (-1)) (.scalar .int) (.point 0)) := by
  have hdivides : Divides .int (-7) 3 := ⟨rfl, by decide, by decide, by decide, by decide⟩
  exact ⟨rfl, hdivides.yields .empty, fun hagree => absurd (hdivides.agree_iff.mp hagree) (by decide)⟩

end Spirv
end Shading
