import Shading.Proofs.Grammar.Fatal
import Shading.Proofs.Place.Declaration
import Shading.Proofs.Token.Lossless

/-! Whatever a source is, what has been read and reported at its end stands in it. -/
namespace Shading

variable {source : String}

lemma Token.IsCut.within {t : Token} (h : t.IsCut source) : t.span.Within source :=
  ⟨Nat.le_add_right .., h.isValid.1, h.isValid.2⟩

lemma Span.within_end : (Span.point source.utf8ByteSize).Within source :=
  ⟨le_rfl, String.Pos.Raw.isValid_rawEndPos, String.Pos.Raw.isValid_rawEndPos⟩

namespace Word

variable {t : Token} {before : List Report}

lemma span_rejection : (rejection t).span = t.span := by
  unfold rejection
  split <;> rfl

lemma span_ofToken : (ofToken before t).span = t.span := by
  unfold ofToken
  split <;> rfl

lemma within_ofToken (ht : t.span.Within source) (hbefore : ∀ r ∈ before, r.span.Within source) :
    (ofToken before t).Within source := by
  refine ⟨span_ofToken ▸ ht, fun r hr => ?_⟩
  unfold ofToken at hr
  split at hr
  · obtain rfl | hr := List.mem_cons.mp (List.mem_reverse.mp hr)
    · exact ht
    · exact hbefore r hr
  · exact hbefore r (List.mem_reverse.mp hr)

/-- The words of tokens in a row; `before` are the reports that wait for the next word. -/
def following (before : List Report) : List Token → List Word
  | [] => []
  | t :: ts =>
    if t.kind.isTrivia then following before ts
    else if t.kind = .invalid then following (rejection t :: before) ts
    else ofToken before t :: following [] ts

lemma foldl_following (ts : List Token) (words : Array Word) (before : List Report) :
    (ts.foldl (fun (words, before) t =>
      if t.kind.isTrivia then (words, before)
      else if t.kind = .invalid then (words, rejection t :: before)
      else (words.push (ofToken before t), [])) (words, before)).1.toList = words.toList ++
      following before ts := by
  induction ts generalizing words before with
  | nil => simp [following]
  | cons t ts ih =>
    rw [List.foldl_cons, following]
    dsimp only
    split
    · exact ih ..
    split
    · exact ih ..
    · rw [ih]
      simp

lemma ofTokens_eq (tokens : Array Token) : ofTokens tokens = following [] tokens.toList := by
  rw [ofTokens, ← Array.foldl_toList]
  exact foldl_following tokens.toList #[] []

lemma exists_line_following {offset : Nat} {ts : List (TokenKind × List Char)}
    (hts : ∀ x ∈ ts, x.1 ≠ .endOfFile ∧ x.2 ≠ [])
    (hplaced : ∀ t ∈ Scan.placed offset ts, t.span.Within source)
    (hend : offset + byteLength (ts.flatMap Prod.snd) = source.utf8ByteSize)
    (hbefore : ∀ r ∈ before, r.span.Within source) :
    ∃ w rest, following before (Scan.placed offset ts ++ [⟨.endOfFile, [], source.utf8ByteSize⟩]) = w :: rest ∧
      w.Line source rest ∧ offset ≤ w.span.start := by
  induction ts generalizing offset before with
  | nil =>
    refine ⟨_, [], rfl, ⟨within_ofToken Span.within_end hbefore, rfl, rfl⟩, ?_⟩
    rw [span_ofToken]
    exact (Nat.le_add_right ..).trans hend.le
  | cons t ts ih =>
    obtain ⟨⟨hkind, hlexeme⟩, hts⟩ := List.forall_mem_cons.mp hts
    obtain ⟨ht, hplaced⟩ := List.forall_mem_cons.mp hplaced
    rw [List.flatMap_cons, byteLength_append, ← Nat.add_assoc] at hend
    have hpos := byteLength_pos hlexeme
    have hnext {before : List Report} (hbefore : ∀ r ∈ before, r.span.Within source) := ih hts hplaced hend hbefore
    rw [Scan.placed, List.cons_append, following]
    split
    · obtain ⟨w, rest, heq, hline, hstart⟩ := hnext hbefore
      exact ⟨w, rest, heq, hline, by omega⟩
    split
    · have hreport : ∀ r ∈ rejection ⟨t.1, t.2, offset⟩ :: before, r.span.Within source :=
        List.forall_mem_cons.mpr ⟨span_rejection ▸ ht, hbefore⟩
      obtain ⟨w, rest, heq, hline, hstart⟩ := hnext hreport
      exact ⟨w, rest, heq, hline, by omega⟩
    · obtain ⟨w, rest, heq, hline, hstart⟩ := hnext (List.forall_mem_nil _)
      refine ⟨_, w :: rest, by rw [heq], ⟨within_ofToken ht hbefore, ?_, ?_, hline⟩, ?_⟩ <;> rw [span_ofToken]
      · exact Nat.lt_add_of_pos_right hpos
      · exact hstart
      · exact le_rfl

lemma exists_line_ofTokens (source : String) : ∃ w rest, ofTokens (tokenize source) = w :: rest ∧
    w.Line source rest := by
  have hts : ∀ x ∈ Scan.tokens source.toList, x.1 ≠ .endOfFile ∧ x.2 ≠ [] := fun x hx => by
    obtain ⟨c, rest, xs, r, hlexeme, hmunch⟩ := Scan.exists_of_mem_tokens hx
    have hkind := @Scan.munch_ne_endOfFile c rest
    rw [hmunch] at hkind
    exact ⟨hkind, by rw [hlexeme]; exact List.cons_ne_nil c xs⟩
  have hend : 0 + byteLength ((Scan.tokens source.toList).flatMap Prod.snd) = source.utf8ByteSize := by
    rw [Scan.flatMap_tokens, byteLength_eq, String.ofList_toList, Nat.zero_add]
  obtain ⟨w, rest, heq, hline, -⟩ := exists_line_following hts (fun t ht => (isCut_of_mem_placed ht).within) hend
    (List.forall_mem_nil fun r : Report => r.span.Within source)
  exact ⟨w, rest, by rw [ofTokens_eq, toList_tokenize, heq], hline⟩

end Word

namespace Grammar

variable {site : Site} {kind : ShaderKind} {options : CompileOptions}

lemma placed_beginning (hstart : site.holds {} { base := Intrinsic.signatures.toArray })
    (hfirst : site.follows []) :
    (beginning site.source kind options).Placed site := by
  obtain ⟨w, rest, hwords, hline⟩ := Word.exists_line_ofTokens site.source
  have hc : Context.Placed site { Context.initial kind options with
      journal := .readingStarted site.source.utf8ByteSize kind :: (Context.initial kind options).journal } := by
    have hbuiltin : ∀ ty ∈ Ty.builtin, ty.fields?.isNone = true := by decide
    refine ⟨fun r hr => ?_, List.forall_mem_nil _, fun n ty hty fields hfields => ?_, ?_, ?_, hstart⟩
    · simp [Context.initial] at hr
    · obtain hty | hty := Arena.mem_of_get? hty
      · have hnone := hbuiltin ty (List.mem_toArray.mp hty)
        rw [hfields] at hnone
        cases hnone
      · simp [Context.initial, TypeTable.initial] at hty
    · simp [Context.initial]
    · simp [Context.initial]
  unfold beginning
  rw [hwords]
  exact ⟨hc, hline, String.Pos.Raw.isValid_zero, Nat.zero_le _, hfirst⟩

lemma gives_checkCalls {c : Context} {reported : List Nat} {calls : List (Nat × Span)}
    (hcalls : ∀ call ∈ calls, call.2.Within site.source) :
    Check.Gives site (checkCalls c reported calls) fun _ => True := by
  induction calls generalizing reported with
  | nil => exact .pure trivial
  | cons call calls ih =>
    obtain ⟨hcall, hcalls⟩ := List.forall_mem_cons.mp hcalls
    exact .ite (fun _ => ih hcalls) fun _ => .bind (.report hcall) fun _ _ => ih hcalls

lemma reads_closing {s : State} : Reads site s (closing site.source.utf8ByteSize) fun _ _ => True := by
  refine .bind (.get_bind fun _ => reads_lift (.reportIf Span.within_end)) fun _ t _ _ _ => .get_bind fun ht => ?_
  exact reads_lift (gives_checkCalls fun call hcall => ht.context.calls call (List.mem_reverse.mp hcall))

instance (count : Nat) : (partsFor count).Places := places_statements

/-- What is known of the names at the start, and kept by every declaration, is known at the end, and
everything stands in the source. -/
lemma placed_finish [site.AllowsGlobals] (hstart : site.holds {} { base := Intrinsic.signatures.toArray })
    (hfirst : site.follows []) : (finish site.source kind options).Placed site := by
  rw [finish_eq_after_reading]
  exact (Reads.bind reads_declarations (fun _ _ _ _ _ => reads_closing) (placed_beginning hstart hfirst)).1

end Grammar
end Shading
