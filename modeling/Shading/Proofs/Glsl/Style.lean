import Shading.Proofs.Glsl.Restyled
import Shading.Proofs.Typing.Soundness

/-! The style of a GLSL text is no part of its code. Under other options a program is written with
other whitespace and other precisions, and the tokens of the text stay the same otherwise. -/
namespace Shading.Glsl

open Scan (kind? isWord)

variable {t : Target} {o o' : CompileOptions} {c : Context}

/-! ### Types -/

/-- The types of a function, whether it is one of the language or of the program. -/
lemma known_function (hp : t.program.Regular c) (hs : t.program.Sound) {n : Nat} {f : Function}
    (hf : t.program.functions.get? n = some f) :
    f.returns.Known c ∧ ∀ ty ∈ f.parameterTypes, ty.Known c := by
  have hsimple {ty : Ty} (h : (ty.isGeneric || ty.scalar?.isSome) = true) : ty.Known c := by
    cases ty with
    | array | struct | poison | invalid => cases h
    | _ => trivial
  have hsignatures : ∀ f ∈ Intrinsic.signatures, (f.returns.isGeneric || f.returns.scalar?.isSome) = true ∧
      ∀ ty ∈ f.parameterTypes, (ty.isGeneric || ty.scalar?.isSome) = true := by decide +kernel
  obtain hintrinsic | hregular := hp.function hs hf
  · obtain ⟨hreturns, hparameters⟩ := hsignatures f hintrinsic
    exact ⟨hsimple hreturns, fun ty hty => hsimple (hparameters ty hty)⟩
  · exact ⟨hregular.returns, hregular.parameters⟩

/-! ### Declarations of a program -/

section Accepted

variable (hp : t.program.Regular c)

include hp

lemma styled_fieldLines {inBlock : Bool} {fields : List (Field Ty)}
    (h : ∀ f ∈ fields, c.Names f.name ∧ f.ty.Known c ∧ f.modifiers.layout.FitsWords) :
    Styled (t.manner o') Free (fieldLines t inBlock fields) (fieldLines (t.restyled o') inBlock fields) Free := by
  refine .flatMap fun f hf => ?_
  obtain ⟨hname, hty, -⟩ := h f (List.mem_of_mem_filter hf)
  have hmodifiers : Legible (t.manner o') Free (if inBlock then t.modifiers f.modifiers else []) Free := by
    split
    · exact legible_modifiers
    · exact .nil fun _ => id
  have hdeclared : Legible (t.manner o') Free [baseType f.ty, .blank, .lexeme f.name] Dotted :=
    .cons (legible_baseType hp hty) (.cons .blank (.name (hname hp.clean) fun _ => Free.opens))
  have hend : Legible (t.manner o') Dotted [.lexeme ";"] Free := Styled.semicolon.before fun _ => Dotted.shuts
  exact .append (.append (.append (.append (.append legible_lineStart hmodifiers) styled_precision)
    hdeclared) (legible_dimensions f.ty)) hend

lemma styled_parameter {p : Parameter} {number : Option Nat} (h : p.ty.Known c) :
    Styled (t.manner o') Free (parameter t p number) (parameter (t.restyled o') p number) Shuts := by
  have hname : Legible (t.manner o') Dotted (parameterName t number) Dotted := by
    cases number with
    | none => exact .nil fun _ => id
    | some n =>
      unfold parameterName
      dsimp only
      split
      · exact .nil fun _ => id
      · exact .cons .blank (legible_variableName hp n)
  refine Styled.after (.append (.append (.append
    (.append legible_parameterModifiers styled_precision) ?_) hname) (legible_dimensions p.ty))
    fun _ => Dotted.shuts
  exact legible_baseType hp h

variable (hs : t.program.Sound)

include hs

lemma styled_signature {n : Nat} {f : Function} (hf : t.program.functions.get? n = some f) {numbers : List Nat} :
    Styled (t.manner o') Free (signature t n numbers) (signature (t.restyled o') n numbers) Free := by
  obtain ⟨hreturns, hparameters⟩ := known_function hp hs hf
  have hat : t.program.functionAt n = f := by rw [Program.functionAt, hf, Option.getD_some]
  have hname : Legible (t.manner o') Dotted [.blank, .lexeme (t.functionName n)] Dotted :=
    .cons .blank (.name (isName_functionName hp hs rfl hf) fun _ => Free.opens)
  have htype : Legible (t.manner o') Free (wholeType (t.program.functionAt n).returns) Dotted :=
    .cons (legible_baseType hp (hat ▸ hreturns)) (legible_dimensions _)
  refine .append (.append (.append styled_precision htype) hname) (.applied (.separated ?_))
  rw [List.mapIdx_eq_zipIdx_map, List.mapIdx_eq_zipIdx_map, List.forall₂_map_left_iff, List.forall₂_map_right_iff]
  refine List.forall₂_same.mpr fun x hx => ?_
  refine styled_parameter hp (hparameters _ ?_)
  rw [← hat]
  exact List.mem_map_of_mem (List.fst_mem_of_mem_zipIdx hx)

omit hs in
lemma styled_interfaceBlock {v : Variable} (h : v.Regular c) :
    Styled (t.manner o') Free (interfaceBlock t v) (interfaceBlock (t.restyled o') v) Free := by
  have hblock := h.known.leaf
  unfold interfaceBlock
  dsimp only
  cases hty : v.ty.leaf with
  | struct id name fields block =>
    rw [hty] at hblock
    have hhead : Legible (t.manner o') Free [.lexeme name, .gap] Dotted :=
      .cons (.name (hblock.2.1 hp.clean) fun _ => Free.opens) .gap
    have hname : Legible (t.manner o') Free (if v.name.isEmpty then []
      else [.blank, .lexeme v.name] ++ dimensions v.ty) Shuts := by
      split
      · exact .nil fun _ => Free.shuts
      · rename_i hempty
        have hname := h.name (fun heq => hempty (by rw [heq]; rfl)) hp.clean
        exact Styled.after (.append (.cons .blank (.name hname fun _ => Free.opens))
          (legible_dimensions _)) fun _ => Dotted.shuts
    split
    · exact .nil fun _ ha => ha
    · refine .append (.append (.append (.append legible_modifiers hhead) ?_) hname) (.cons .semicolon (.room rfl))
      exact (styled_fieldLines hp hblock.fields).braced
  | _ => exact .nil fun _ => id

lemma styled_functionBody {body : Stmt} (h : CheckedStmt t c body) :
    Styled (t.manner o') Free (functionBody t body) (functionBody (t.restyled o') body) Free := by
  refine Styled.before (fun _ => Free.dotted) ?_
  cases body with
  | block braced body span => exact (styled_lines hp hs body (fun x hx => h.part hx) 1).braced
  | _ => exact (styled_lines hp hs _ (List.forall_mem_singleton.mpr h) 1).braced

omit hp hs in
lemma checkedStmt_of_wellTyped {returns : Ty} {s : Stmt}
    (hw : s.WellTyped t.program.declared returns) (hr : s.Regular c)
    (hn : ∀ x ∈ s.nodes, ∀ e ∈ x.exprs, ∀ y ∈ e.nodes, y ∈ t.program.nodes) : CheckedStmt t c s := by
  intro x hx
  obtain ⟨hrule, hexprs⟩ := hw x hx
  refine ⟨fun e he => ⟨hexprs e he, hr x hx e he, hn x hx e he⟩, ?_⟩
  rintro n init span rfl
  obtain ⟨v, hv, -⟩ := hrule
  exact ⟨v, hv⟩

lemma styled_element {e : Element} (he : e ∈ t.program.elements) :
    Styled (t.manner o') Free (element t e) (element (t.restyled o') e) Free := by
  have hregular := hp.elements e he
  have hwell := hs.elements e he
  have hnodes : ∀ x ∈ e.nodes, x ∈ t.program.nodes := fun x hx => List.mem_flatMap.mpr ⟨e, he, hx⟩
  have hend : Legible (t.manner o') Shuts [.lexeme ";", .newline] Free := .cons .semicolon (.room rfl)
  cases e with
  | struct ty span =>
    obtain ⟨hknown, hstruct⟩ := hregular
    cases ty with
    | struct id name fields block =>
      have hhead : Legible (t.manner o') Free [.lexeme name, .gap] Dotted :=
        .cons (.name (hknown.2.1 hp.clean) fun _ => Free.opens) .gap
      refine .append (.append (.append (legible_word rfl) hhead) ?_) (hend.before fun _ => Free.shuts)
      exact (styled_fieldLines hp hknown.fields).braced
    | _ => cases hstruct
  | block n span =>
    obtain ⟨v, hv⟩ := hwell
    change t.program.variables[n]? = some v at hv
    have hat : t.program.variableAt n = v := by
      rw [Program.variableAt, Array.getD_eq_getD_getElem?, hv, Option.getD_some]
    rw [hp.variables] at hv
    exact styled_interfaceBlock hp (hat ▸ hp.context.variable_ hv)
  | global n init span =>
    obtain ⟨v, hv, hinit⟩ := hwell
    change Styled _ _ (if (t.program.variableAt n).modifiers.isBuiltin then [] else _)
      (if (t.program.variableAt n).modifiers.isBuiltin then [] else _) _
    by_cases hbuiltin : (t.program.variableAt n).modifiers.isBuiltin = true
    · rw [if_pos hbuiltin, if_pos hbuiltin]
      exact .nil fun _ ha => ha
    · rw [if_neg hbuiltin, if_neg hbuiltin]
      refine .append (styled_declaration hp hs (List.forall_mem_singleton.mpr ⟨⟨v, hv⟩, fun i hi => ?_⟩)) hend
      exact ⟨(hinit i hi).1, hregular i hi, fun x hx =>
        hnodes x (List.mem_flatMap.mpr ⟨i, Option.mem_toList.mpr hi, hx⟩)⟩
  | prototype f span =>
    obtain ⟨g, hg⟩ := hwell
    exact .append (styled_signature hp hs hg) (hend.before fun _ => Free.shuts)
  | definition f numbers body span =>
    obtain ⟨g, hg, -, -, hbody, -⟩ := hwell
    have hchecked : CheckedStmt t c body := checkedStmt_of_wellTyped hbody hregular fun s hs e he x hx =>
      hnodes x (List.mem_flatMap.mpr ⟨s, hs, List.mem_flatMap.mpr ⟨e, he, hx⟩⟩)
    exact .append (.append (.append (styled_signature hp hs hg) .gap)
      (styled_functionBody hp hs hchecked)) (.room rfl)

end Accepted

/-! ### Tokens of a text -/

/-- The tokens of a text, up to its end and without whitespace. -/
def significantTokens (text : String) : List (TokenKind × List Char) :=
  ((tokenize text).toList.map fun t => (t.kind, t.lexeme)).filter fun t => t.1 != .whitespace && t.1 != .endOfFile

lemma significantTokens_eq (text : String) : significantTokens text = Scan.significant text.toList := by
  have hplaced (offset : Nat) (ts : List (TokenKind × List Char)) :
    (Scan.placed offset ts).map (fun t => (t.kind, t.lexeme)) = ts := by
    induction ts generalizing offset with
    | nil => rfl
    | cons u ts ih => rw [Scan.placed, List.map_cons, ih]
  have hkinds : ∀ u ∈ Scan.tokens text.toList, (u.1 != .endOfFile) = true := by
    intro u hu
    obtain ⟨d, rest, xs, r, -, hmunch⟩ := Scan.exists_of_mem_tokens hu
    have hkind := @Scan.munch_ne_endOfFile d rest
    rw [hmunch] at hkind
    exact bne_iff_ne.mpr hkind
  rw [significantTokens, toList_tokenize, List.map_append, hplaced, List.filter_append, Scan.significant]
  change List.filter _ _ ++ [] = _
  rw [List.append_nil]
  refine List.filter_congr fun u hu => ?_
  rw [hkinds u hu, Bool.and_true]

lemma significant_hash (rest : List Char) : Scan.significant ('#' :: rest) = (.invalid, ['#']) ::
    Scan.significant rest := by
  have hmunch : Scan.munch '#' rest = (.invalid, ['#'], rest) := by
    have halone : Scan.munch '#' [] = (.invalid, ['#'], []) := by decide
    exact Scan.munch_replace halone (by cases rest <;> rfl)
  rw [Scan.significant, Scan.tokens_cons, hmunch]
  rfl

/-- The pieces of the directive after its first character. -/
def directivePieces (v : GlslVersion) : List Piece :=
  [.lexeme "version", .blank, .lexeme (toString v.number)] ++ if v.isEs then [.blank, .lexeme "es"] else []

lemma toList_directive (v : GlslVersion) : v.directive.toList = '#' :: spell false none (directivePieces v) := by
  have hall : ∀ v ∈ GlslVersion.all, v.directive.toList = '#' ::
    spell false none (directivePieces v) := by decide +kernel
  exact hall v (by cases v <;> decide)

lemma significant_directive (v : GlslVersion) (rest : List Char) :
    Scan.significant (v.directive.toList ++ '\n' :: rest) = significantTokens v.directive ++
    Scan.significant rest := by
  have hlegible : Legible ⟨{}, {}, fun _ => True⟩ Free (directivePieces v) Shuts := by
    refine .append (.append (legible_word rfl) (.number v.number fun _ => Free.opens)) ?_
    split
    · exact .cons .blank ((Styled.word rfl fun _ => Free.opens).after fun _ => Dotted.shuts)
    · exact .nil fun _ ha => ha
  obtain ⟨z, -, ts, -, -, -, hspells, -⟩ := hlegible.spells none none free_none free_none
  have htokens (next : List Char) (hnext : next.head?.all Scan.isBlank = true) :
      Scan.significant (v.directive.toList ++ next) = (.invalid, ['#']) :: ts ++ Scan.significant next := by
    rw [toList_directive, List.cons_append, significant_hash, hspells.significant_spell hnext, List.cons_append]
  have halone := htokens [] rfl
  rw [List.append_nil, Scan.significant_nil, List.append_nil] at halone
  rw [significantTokens_eq, halone, htokens _ rfl, Scan.significant_blank rfl]

/-- The declaration of a precision that stands first where the options ask for one and the version
needs it. -/
def lead (version : GlslVersion) (options : CompileOptions) : List (TokenKind × List Char) :=
  if version.isEs && options.precisionQualifiers then significantTokens "precision mediump float;" else []

lemma spells_defaultPrecision (t : Target) : ∃ z, Free z ∧
    Spells none (defaultPrecision t) (lead t.version t.program.options) z := by
  unfold defaultPrecision lead
  split
  · have hkinds : kind? "precision" = some .reserved ∧ kind? "mediump" = some .reserved ∧
      kind? "float" = some .identifier := by decide +kernel
    have htokens : significantTokens "precision mediump float;" =
        [(.reserved, "precision".toList), (.reserved, "mediump".toList),
          (.identifier, "float".toList), (.mark .semicolon, ";".toList)] := by
      decide +kernel
    have hfloat : Shuts (some "float") := (dotted_word (Scan.isWord_of_isName hkinds.2.2)).shuts
    have hmeets : ";".toList.head?.all (meets (some "float")) = true :=
      hfloat.head_mark (show Punctuator.semicolon ≠ .dot by decide)
    rw [htokens]
    refine ⟨some ";", @free_mark .semicolon rfl, ?_⟩
    refine .lexeme hkinds.1 rfl free_none.head (.firm rfl (.lexeme hkinds.2.1 rfl free_none.head (.firm rfl ?_)))
    exact .lexeme hkinds.2.2 rfl free_none.head (.lexeme (kind?_markText .semicolon) rfl hmeets (.room rfl .nil))
  · exact ⟨none, free_none, .nil⟩

lemma significantTokens_text {ts : List (TokenKind × List Char)} {z : Option String}
    (h : Spells none (pieces t) ts z) :
    significantTokens (text t) = significantTokens t.version.directive ++ ts := by
  obtain ⟨rest, hrest, htext⟩ := @toList_layOut t.program.options.minify (pieces t) (t.version.directive ++ "\n")
  have hblank : rest.all Scan.isBlank = true ∧ rest.head?.all Scan.isBlank = true := by
    obtain rfl | rfl := hrest <;> decide
  have hdirective : (t.version.directive ++ "\n").toList = t.version.directive.toList ++
    ['\n'] := by rw [String.toList_append]; rfl
  have hend : Scan.significant rest = [] := by
    have hblanks := @Scan.significant_blanks rest [] hblank.1
    rwa [List.append_nil, Scan.significant_nil] at hblanks
  rw [significantTokens_eq, text, htext, hdirective, List.append_assoc, List.singleton_append,
    significant_directive,
    h.significant_spell hblank.2, hend, List.append_nil]

/-! ### Programs under other options -/

lemma parse_restyled {source : String} {kind : ShaderKind} {p : Program}
    (h : (Program.parse source kind o).result = .ok p) :
    p.options = o ∧ (Program.parse source kind o').result = .ok { p with options := o' } := by
  have hfinish : Grammar.finish source kind o' = Grammar.finish source kind o := rfl
  unfold Program.parse Program.read at h ⊢
  dsimp only at h ⊢
  rw [hfinish]
  by_cases hlength : CompileError.maxSourceLength < source.length
  · rw [if_pos hlength] at h
    cases h
  rw [if_neg hlength] at h ⊢
  cases hproblems : (Grammar.finish source kind o).context.journal.hasProblems with
  | true =>
    rw [hproblems] at h
    cases h
  | false =>
    rw [hproblems] at h
    obtain rfl := Except.ok.inj h
    exact ⟨rfl, rfl⟩

/-- The pieces of a program under two sets of options. Problems are found at the nodes of the
program. -/
lemma spells_pieces (hp : t.program.Regular c) (hs : t.program.Sound) : (pieces t).filterMap Piece.report? =
      (pieces (t.restyled o')).filterMap Piece.report? ∧
    (∀ r ∈ (pieces t).filterMap Piece.report?, ∃ e ∈ t.program.nodes, r.span = e.span) ∧
    ∃ body body' z z', Spells none (pieces t) (lead t.version t.program.options ++ body) z ∧
      Spells none (pieces (t.restyled o')) (lead t.version o' ++ body') z' ∧
      Alike t.program.options o' body body' := by
  have helements : Styled (t.manner o') Free (t.program.elements.flatMap (element t))
      (t.program.elements.flatMap (element (t.restyled o'))) Free := .flatMap fun e he => styled_element hp hs he
  have hreports (u : Target) : (defaultPrecision u).filterMap Piece.report? = [] := by
    unfold defaultPrecision
    split <;> rfl
  refine ⟨?_, ?_, ?_⟩
  · rw [pieces, pieces, List.filterMap_append, List.filterMap_append, hreports, hreports]
    exact helements.reports
  · rw [pieces, List.filterMap_append, hreports]
    exact helements.places
  · obtain ⟨a, ha, hlead⟩ := spells_defaultPrecision t
    obtain ⟨a', ha', hlead'⟩ := spells_defaultPrecision (t.restyled o')
    obtain ⟨z, z', body, body', -, -, hbody, hbody', halike⟩ := helements.spells a a' ha ha'
    exact ⟨body, body', z, z', hlead.append hbody, hlead'.append hbody', halike⟩

/-- The style of a text is no part of its code. A source that is accepted under some options is the
same program under all, and what is written for it fails for the same reasons or not at all. The
texts have the same directive, each may have a declaration of the precision first, and what follows
differs in precisions only. -/
theorem style_keeps_code {source : String} {kind : ShaderKind} {p : Program}
    (h : (Program.parse source kind o).result = .ok p)
    (o' : CompileOptions) : (Program.parse source kind o').result = .ok { p with options := o' } ∧ ∀ api version,
    (∃ failure, (p.toGlsl api version).result = .error failure ∧
      (Program.toGlsl { p with options := o' } api version).result = .error failure) ∨
    ∃ text text' body body', (p.toGlsl api version).result = .ok text ∧
      (Program.toGlsl { p with options := o' } api version).result = .ok text' ∧
      significantTokens text = significantTokens version.directive ++ (lead version o ++ body) ∧
      significantTokens text' = significantTokens version.directive ++ (lead version o' ++ body') ∧
        Alike o o' body body' := by
  obtain ⟨hoptions, hparse⟩ := parse_restyled h
  refine ⟨hparse, fun api version => ?_⟩
  obtain ⟨c, hp⟩ := Program.exists_regular_of_parse h
  obtain ⟨hreports, -, body, body', z, z', hbody, hbody', halike⟩ :=
    @spells_pieces ⟨p, api, version⟩ o' c hp (Program.sound_of_parse h)
  have htext := significantTokens_text hbody
  have htext' := significantTokens_text hbody'
  rw [show (Target.mk p api version).program.options = o from hoptions] at htext halike
  unfold Program.toGlsl
  dsimp only
  cases hfound : (pieces ⟨p, api, version⟩).filterMap Piece.report? with
  | nil =>
    have hfound' : (pieces ⟨{ p with options := o' }, api, version⟩).filterMap Piece.report? =
      [] := hreports.symm.trans hfound
    rw [hfound']
    exact .inr ⟨_, _, body, body', rfl, rfl, htext, htext', halike⟩
  | cons r rs =>
    have hfound' : (pieces ⟨{ p with options := o' }, api, version⟩).filterMap Piece.report? = r ::
      rs := hreports.symm.trans hfound
    rw [hfound']
    exact .inl ⟨_, rfl, rfl⟩

/-- A color of low precision, once laid out for readers and once as short as possible with
precisions. -/
theorem style_keeps_code_color : ∃ p body body',
    (Program.parse "half4 c; void main() { c.x = -(-c.y) - 1.0; }" .fragment {}).result = .ok p ∧
    (p.toGlsl .openGl .v300es).result =
    .ok "#version 300 es\nvec4 c;\nvoid main() \x7b\n    c.x = - -c.y - 1.0;\n\x7d\n" ∧
    (Program.toGlsl { p with options := { minify := true, precisionQualifiers := true } } .openGl .v300es).result =
      .ok "#version 300 es\nprecision mediump float;mediump vec4 c;void main()\x7bc.x=- -c.y-1.0;\x7d\n" ∧
    significantTokens "#version 300 es\nvec4 c;\nvoid main() \x7b\n    c.x = - -c.y - 1.0;\n\x7d\n" =
      significantTokens "#version 300 es" ++ body ∧
    significantTokens "#version 300 es\nprecision mediump float;mediump vec4 c;void main()\x7bc.x=- -c.y-1.0;\x7d\n"
      =
      significantTokens "#version 300 es" ++ (significantTokens "precision mediump float;" ++ body') ∧
    Alike {} { minify := true, precisionQualifiers := true } body body' := by
  have hok {ε α : Type} {r : Except ε α} {a : α} (h : r.toOption = some a) : r = .ok a := by
    cases r with
    | error e => cases h
    | ok b => exact congrArg _ (Option.some.inj h)
  obtain ⟨p, hp, htexts⟩ := Program.exists_ok_of_map (show
      ((Program.parse "half4 c; void main() { c.x = -(-c.y) - 1.0; }" .fragment
        {}).result.toOption.map fun p => ((p.toGlsl .openGl .v300es).result.toOption,
        (Program.toGlsl { p with options := { minify := true, precisionQualifiers := true } }
          .openGl .v300es).result.toOption)) =
    some (some "#version 300 es\nvec4 c;\nvoid main() \x7b\n    c.x = - -c.y - 1.0;\n\x7d\n",
      some "#version 300 es\nprecision mediump float;mediump vec4 c;void main()\x7bc.x=- -c.y-1.0;\x7d\n")
        by decide +kernel)
  obtain ⟨hpretty, hshort⟩ := Prod.mk.inj htexts
  obtain ⟨failure, hfailure, -⟩ | ⟨text, text', body, body', htext, htext', htokens, htokens', halike⟩ :=
    (style_keeps_code hp { minify := true, precisionQualifiers := true }).2 .openGl .v300es
  · rw [hok hpretty] at hfailure
    cases hfailure
  · rw [hok hpretty] at htext
    rw [hok hshort] at htext'
    obtain rfl := Except.ok.inj htext
    obtain rfl := Except.ok.inj htext'
    exact ⟨p, body, body', hp, hok hpretty, hok hshort, htokens, htokens', halike⟩

end Shading.Glsl
