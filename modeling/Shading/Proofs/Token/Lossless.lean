import Shading.Proofs.Token.Munch

/-! Scanning loses nothing. The tokens of a text lie side by side, put together they are the text
again, and each of them read by itself is the same token. -/
namespace Shading

variable {cs before after : List Char} {kind : TokenKind} {c : Char} {rest : List Char}

lemma byteLength_eq (cs : List Char) : byteLength cs = (String.ofList cs).utf8ByteSize := by
  have hfold (cs : List Char) (n : Nat) : cs.foldl (fun n c => n + c.utf8Size) n = n +
    (String.ofList cs).utf8ByteSize := by
    induction cs generalizing n with
    | nil => simp
    | cons c cs ih =>
      rw [List.foldl_cons, ih, String.ofList_cons, String.utf8ByteSize_append, String.utf8ByteSize_singleton]
      omega
  rw [byteLength, hfold]
  omega

lemma byteLength_append : byteLength (before ++ after) = byteLength before + byteLength after := by
  rw [byteLength_eq, byteLength_eq, byteLength_eq, String.ofList_append, String.utf8ByteSize_append]

lemma byteLength_pos (h : cs ≠ []) : 0 < byteLength cs := by
  cases cs with
  | nil => exact absurd rfl h
  | cons c cs =>
    have hc := c.utf8Size_pos
    rw [byteLength_eq, String.ofList_cons, String.utf8ByteSize_append, String.utf8ByteSize_singleton]
    omega

namespace Scan

/-! ### Tokens without places -/

/-- The tokens of a text, without their places and without the end of the file. -/
def tokens (cs : List Char) : List (TokenKind × List Char) :=
  match cs with
  | [] => []
  | c :: rest => ((munch c rest).1, (munch c rest).2.1) :: tokens (munch c rest).2.2
termination_by cs.length
decreasing_by exact munch_shorter c rest

lemma tokens_nil : tokens [] = [] := by rw [tokens]

lemma tokens_cons : tokens (c :: rest) = ((munch c rest).1, (munch c rest).2.1) ::
    tokens (munch c rest).2.2 := by rw [tokens]

lemma flatMap_tokens : (tokens cs).flatMap Prod.snd = cs := by
  fun_induction tokens cs with
  | case1 => rfl
  | case2 c rest ih => rw [List.flatMap_cons, ih, munch_append]

lemma exists_of_mem_tokens {t : TokenKind × List Char} (h : t ∈ tokens cs) :
    ∃ c rest xs r, t.2 = c :: xs ∧ munch c rest = (t.1, c :: xs, r) := by
  fun_induction tokens cs with
  | case1 => simp at h
  | case2 c rest ih =>
    obtain rfl | h := List.mem_cons.mp h
    · have happend := munch_append c rest
      cases hlexeme : (munch c rest).2.1 with
      | nil => exact absurd hlexeme (munch_ne_nil c rest)
      | cons d xs =>
        rw [hlexeme] at happend
        obtain ⟨rfl, -⟩ := List.cons.inj happend
        exact ⟨d, rest, xs, (munch d rest).2.2, rfl, by rw [← hlexeme]⟩
    · exact ih h

lemma tokens_of_mem {t : TokenKind × List Char} (h : t ∈ tokens cs) : tokens t.2 = [t] := by
  obtain ⟨c, rest, xs, r, hlexeme, hmunch⟩ := exists_of_mem_tokens h
  have halone := munch_replace hmunch (show ends t.1 (c :: xs) [] = true from rfl)
  rw [List.append_nil] at halone
  rw [hlexeme, tokens_cons, halone, tokens_nil, ← hlexeme]

lemma wordKind_ne_endOfFile {word : List Char} : wordKind word ≠ .endOfFile := by
  unfold wordKind
  dsimp only
  repeat' split
  all_goals simp

lemma munch_ne_endOfFile : (munch c rest).1 ≠ .endOfFile := by
  unfold munch
  split
  · exact wordKind_ne_endOfFile
  split
  · obtain hn | hn := @fst_number (c :: rest) <;> simp [hn]
  split
  · simp
  · unfold other
    repeat' split
    all_goals simp

/-! ### Tokens with their places -/

/-- Tokens one after the other, the first one at a place. -/
def placed (offset : Nat) : List (TokenKind × List Char) → List Token
  | [] => []
  | t :: ts => ⟨t.1, t.2, offset⟩ :: placed (offset + byteLength t.2) ts

lemma toList_loop {offset : Nat} {found : Array Token} :
    (loop offset cs found).toList = found.toList ++ placed offset (tokens cs) ++
    [⟨.endOfFile, [], offset + byteLength cs⟩] := by
  fun_induction loop offset cs found with
  | case1 offset found => simp [tokens_nil, placed, byteLength]
  | case2 offset found c rest ih =>
    have hlength : byteLength (c :: rest) = byteLength (munch c rest).2.1 + byteLength (munch c rest).2.2 := by
      rw [← byteLength_append, munch_append]
    rw [ih, tokens_cons, placed, hlength]
    simp [Nat.add_assoc]

variable {ts : List (TokenKind × List Char)} {offset : Nat} {t : Token}

lemma mem_of_mem_placed (h : t ∈ placed offset ts) : (t.kind, t.lexeme) ∈ ts := by
  induction ts generalizing offset with
  | nil => cases h
  | cons u ts ih =>
    obtain rfl | h := List.mem_cons.mp h
    · exact List.mem_cons_self
    · exact List.mem_cons_of_mem u (ih h)

lemma cut_of_mem_placed (h : t ∈ placed offset ts) :
    ∃ before after, ts.flatMap Prod.snd = before ++ (t.lexeme ++ after) ∧
    t.start = offset + byteLength before := by
  induction ts generalizing offset with
  | nil => cases h
  | cons u ts ih =>
    obtain rfl | h := List.mem_cons.mp h
    · exact ⟨[], ts.flatMap Prod.snd, rfl, rfl⟩
    · obtain ⟨before, after, htext, hstart⟩ := ih h
      refine ⟨u.2 ++ before, after, ?_, ?_⟩
      · rw [List.flatMap_cons, htext, List.append_assoc]
      · rw [hstart, byteLength_append]
        omega

lemma flatMap_placed : (placed offset ts).flatMap Token.lexeme = ts.flatMap Prod.snd := by
  induction ts generalizing offset with
  | nil => rfl
  | cons u ts ih => rw [placed, List.flatMap_cons, List.flatMap_cons, ih]

lemma isChain_placed {last : Token} (hlast : last.start = offset + byteLength (ts.flatMap Prod.snd)) :
    List.IsChain (fun a b : Token => b.start = a.stop) (placed offset ts ++ [last]) := by
  induction ts generalizing offset with
  | nil => simp [placed]
  | cons u ts ih =>
    rw [List.flatMap_cons, byteLength_append, ← Nat.add_assoc] at hlast
    have htail := ih hlast
    cases ts with
    | nil => simpa [placed, Token.stop, byteLength] using hlast
    | cons v ts => exact List.isChain_cons_cons.mpr ⟨rfl, htail⟩

lemma start_head_placed {last : Token} (hlast : last.start = offset + byteLength (ts.flatMap Prod.snd)) :
    (placed offset ts ++ [last]).head?.map Token.start = some offset := by
  cases ts with
  | nil => simpa [placed, byteLength] using hlast
  | cons u ts => rfl

end Scan

/-! ### Whole sources -/

lemma toList_tokenize (source : String) :
    (tokenize source).toList = Scan.placed 0 (Scan.tokens source.toList) ++
    [⟨.endOfFile, [], source.utf8ByteSize⟩] := by
  rw [tokenize, Scan.toList_loop, byteLength_eq, String.ofList_toList, Nat.zero_add]
  rfl

/-- Where a token lies in a source, it is what stands there. -/
def Token.IsCut (t : Token) (source : String) : Prop :=
  ∃ before after, source = before ++ t.text ++ after ∧ before.utf8ByteSize = t.start ∧
    (before ++ t.text).utf8ByteSize = t.stop

lemma Token.IsCut.isValid {t : Token} {source : String} (h : t.IsCut source) :
    String.Pos.Raw.IsValid source ⟨t.start⟩ ∧ String.Pos.Raw.IsValid source ⟨t.stop⟩ := by
  obtain ⟨before, after, hsource, hstart, hstop⟩ := h
  rw [String.Pos.Raw.isValid_iff_exists_append, String.Pos.Raw.isValid_iff_exists_append]
  refine ⟨⟨before, t.text ++ after, ?_, ?_⟩, ⟨before ++ t.text, after, hsource, ?_⟩⟩
  · rw [hsource, String.append_assoc]
  · rw [← hstart]
    rfl
  · rw [← hstop]
    rfl

lemma isCut_of_mem_placed {source : String} {t : Token}
    (h : t ∈ Scan.placed 0 (Scan.tokens source.toList)) : t.IsCut source := by
  obtain ⟨before, after, htext, hstart⟩ := Scan.cut_of_mem_placed h
  rw [Scan.flatMap_tokens] at htext
  rw [Nat.zero_add, byteLength_eq] at hstart
  refine ⟨String.ofList before, String.ofList after, ?_, hstart.symm, ?_⟩
  · rw [Token.text, ← String.ofList_append, ← String.ofList_append, List.append_assoc, ← htext,
      String.ofList_toList]
  · rw [String.utf8ByteSize_append, Token.stop, hstart, byteLength_eq]
    rfl

/-- The scanner is lossless. Tokens lie side by side from the start of the source to its end, where
the end of the file stands and nowhere else; every other token has a length. They are cut at the
boundaries of characters, put together they are the source, and each of them scanned by itself gives
the same token again. -/
theorem tokenize_lossless (source : String) : ∃ init last, (tokenize source).toList = init ++ [last] ∧
    last = ⟨.endOfFile, [], source.utf8ByteSize⟩ ∧
    (∀ t ∈ init, t.kind ≠ .endOfFile ∧ t.start < t.stop) ∧
    (init ++ [last]).head?.map Token.start = some 0 ∧
    List.IsChain (fun a b : Token => b.start = a.stop) (init ++ [last]) ∧
    (∀ t ∈ init ++ [last], t.IsCut source ∧ String.Pos.Raw.IsValid source ⟨t.start⟩ ∧
      String.Pos.Raw.IsValid source ⟨t.stop⟩) ∧
    String.join ((init ++ [last]).map Token.text) = source ∧
    (∀ t ∈ init, (tokenize t.text).toList = [⟨t.kind, t.lexeme, 0⟩, ⟨.endOfFile, [], t.stop - t.start⟩]) ∧
    (tokenize last.text).toList = [⟨.endOfFile, [], 0⟩] := by
  have hlast : (⟨.endOfFile, [], source.utf8ByteSize⟩ : Token).start = 0 +
    byteLength ((Scan.tokens source.toList).flatMap Prod.snd) := by
    rw [Scan.flatMap_tokens, byteLength_eq, String.ofList_toList, Nat.zero_add]
  have hcut : ∀ t ∈ Scan.placed 0 (Scan.tokens source.toList) ++
    [⟨.endOfFile, [], source.utf8ByteSize⟩], t.IsCut source := by
    intro t ht
    obtain ht | ht := List.mem_append.mp ht
    · exact isCut_of_mem_placed ht
    · rw [List.mem_singleton.mp ht]
      exact ⟨source, "", by simp [Token.text], rfl, by simp [Token.text, Token.stop, byteLength]⟩
  refine ⟨_, _, toList_tokenize source, rfl, ?_, Scan.start_head_placed hlast,
    Scan.isChain_placed hlast, ?_, ?_, ?_, ?_⟩
  · intro t ht
    have hmem := Scan.mem_of_mem_placed ht
    obtain ⟨c, rest, xs, r, hlexeme, hmunch⟩ := Scan.exists_of_mem_tokens hmem
    constructor
    · have hkind := @Scan.munch_ne_endOfFile c rest
      rwa [hmunch] at hkind
    · have hpos : 0 < byteLength t.lexeme := byteLength_pos (by rw [show t.lexeme = c :: xs from hlexeme]; simp)
      rw [Token.stop]
      omega
  · exact fun t ht => ⟨hcut t ht, (hcut t ht).isValid⟩
  · have htexts : (Scan.placed 0 (Scan.tokens source.toList)).flatMap (fun t => t.text.toList) =
      source.toList := by
      simp only [Token.text, String.toList_ofList, Scan.flatMap_placed, Scan.flatMap_tokens]
    rw [← String.toList_inj, String.toList_join, List.flatMap_map, List.flatMap_append, htexts]
    simp [Token.text]
  · intro t ht
    have halone : Scan.tokens t.lexeme = [(t.kind, t.lexeme)] := Scan.tokens_of_mem (Scan.mem_of_mem_placed ht)
    have hlength : t.text.utf8ByteSize = t.stop - t.start := by
      rw [Token.stop, byteLength_eq, Nat.add_sub_cancel_left]
      rfl
    rw [toList_tokenize, hlength, Token.text, String.toList_ofList, halone]
    rfl
  · rw [toList_tokenize]
    simp [Token.text, Scan.tokens_nil, Scan.placed]

end Shading
