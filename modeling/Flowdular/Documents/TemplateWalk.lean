/-
# One walk over a template

Two evaluations of one template run alike (`Alike`) when they do so at every
placeholder, condition and list: that is what `Walk` asks of related chains of
scopes, and `Walk.renderTemplate_alike` is what follows for the document.
-/

import Flowdular.Documents.TemplateScopes
import Flowdular.Lib.Alike

namespace Flowdular.Documents

open Workflows (Json Decimal)

variable {fails : RenderError → Prop}

/-! ### Counters and lists -/

theorem printed_alike (hf : fails .outputTooLarge) (text : String) :
    Alike fails (printed text) (printed text) := by
  unfold printed
  refine Alike.get.bind fun counters => ?_
  dsimp only
  refine Alike.bind ?_ fun _ => ?_
  · exact .set _
  · split
    · exact Alike.bind (.throw hf) fun _ => .pure _
    · exact .pure _

theorem countRows_alike (hf : fails .rowsExceeded) (count : ℕ) :
    Alike fails (countRows count) (countRows count) := by
  unfold countRows
  refine Alike.get.bind fun counters => ?_
  dsimp only
  refine Alike.bind ?_ fun _ => ?_
  · exact .set _
  · split
    · exact .throw hf
    · exact .pure _

variable {values : List Json} {path : TemplatePath} {scopes S T : List Scope}

theorem forEach_alike {α : Type} {body body' : Json → ℕ → α → Eval α} {values' : List Json}
    (hl : values.length = values'.length) (start : ℕ)
    (hb : ∀ (i : ℕ) (v w : Json), values[i]? = some v → values'[i]? = some w → ∀ into,
      Alike (fails) (body v (start + i) into) (body' w (start + i) into)) :
    ∀ into, Alike (fails) (forEach body values start into) (forEach body' values' start into) := by
  induction values generalizing values' start with
  | nil =>
    obtain rfl := List.length_eq_zero_iff.1 hl.symm
    exact fun into => .pure into
  | cons v values ih =>
    obtain ⟨w, values', rfl⟩ := List.exists_cons_of_length_pos (by rw [← hl]; simp)
    intro into
    rw [forEach, forEach]
    refine (hb 0 v w rfl rfl into).bind fun into => ?_
    refine ih (by simpa using hl) (start + 1) (fun i v' w' hv hw => ?_) into
    rw [Nat.add_assoc, Nat.add_comm 1 i]
    exact hb (i + 1) v' w' hv hw

theorem listItems_of_absent
    (h : Absent (resolvePath path scopes)) : listItems path scopes = pure [] := by
  unfold listItems
  rcases h with h | h <;> rw [h]

theorem listItems_of_values (h : resolvePath path scopes = some (.arr values)) :
    listItems path scopes = countRows values.length >>= fun _ => pure values := by
  unfold listItems
  rw [h]

variable [Intl] {options : EvaluateOptions}

/-! ### Runs -/

theorem codeRuns_alike (hf : fails .outputTooLarge) (style : Style) (nodes : List TemplateCodeChild)
    (h : ∀ node ∈ codePlaceholders nodes,
      Alike (fails) (format options node S) (format options node T)) :
    ∀ into, Alike (fails) (codeRuns options S style nodes into)
      (codeRuns options T style nodes into) := by
  induction nodes with
  | nil =>
    intro into
    rw [codeRuns, codeRuns]
    exact .pure into
  | cons node nodes ih =>
    intro into
    cases node with
    | text value =>
      rw [codeRuns, codeRuns]
      exact (printed_alike hf value).bind fun text => ih h _
    | placeholder node =>
      rw [codeRuns, codeRuns]
      obtain ⟨hnode, hn⟩ := List.forall_mem_cons.1 h
      exact hnode.bind fun text => ih hn _

mutual

theorem inlineRuns_alike (hf : fails .outputTooLarge) {S T : List Scope} :
    ∀ (node : TemplateInline) (style : Style),
    (∀ placeholder ∈ inlinePlaceholders node, Alike (fails) (format options placeholder S)
        (format options placeholder T)) →
    ∀ into, Alike (fails) (inlineRuns options S style node into)
      (inlineRuns options T style node into)
  | .leaf child, style, h, into => by
    rw [inlinePlaceholders] at h
    rw [inlineRuns, inlineRuns]
    exact codeRuns_alike hf style [child] h into
  | .break, style, _, into => by
    rw [inlineRuns, inlineRuns]
    exact .pure _
  | .strong children, style, h, into => by
    rw [inlinePlaceholders] at h
    rw [inlineRuns, inlineRuns]
    exact runs_alike hf children _ h into
  | .emphasis children, style, h, into => by
    rw [inlinePlaceholders] at h
    rw [inlineRuns, inlineRuns]
    exact runs_alike hf children _ h into
  | .code children, style, h, into => by
    rw [inlinePlaceholders] at h
    rw [inlineRuns, inlineRuns]
    exact codeRuns_alike hf _ children h into
  | .link children url, style, h, into => by
    rw [inlinePlaceholders] at h
    obtain ⟨hl, hu⟩ := List.forall_mem_append.1 h
    rw [inlineRuns, inlineRuns]
    refine (runs_alike hf children _ hl _).bind fun label => ?_
    refine (codeRuns_alike hf _ url hu _).bind fun target => ?_
    exact .ite (fun _ => .pure _) fun _ => .pure _

theorem runs_alike (hf : fails .outputTooLarge) {S T : List Scope} :
    ∀ (nodes : List TemplateInline) (style : Style),
    (∀ placeholder ∈ linePlaceholders nodes, Alike (fails) (format options placeholder S)
        (format options placeholder T)) →
    ∀ into, Alike (fails) (runs options S style nodes into) (runs options T style nodes into)
  | [], style, _, into => by
    rw [runs, runs]
    exact .pure into
  | node :: nodes, style, h, into => by
    rw [linePlaceholders] at h
    obtain ⟨hnode, hn⟩ := List.forall_mem_append.1 h
    rw [runs, runs]
    exact (inlineRuns_alike hf node style hnode into).bind fun into => runs_alike hf nodes style hn into

end

theorem renderList_alike {list : TemplateList} (h : ∀ line ∈ listLines list,
      Alike (fails) (lineRuns options S line) (lineRuns options T line)) :
    Alike (fails) (renderList options S list) (renderList options T list) := by
  unfold renderList
  refine Alike.bind (.mapM fun item hi => ?_) fun items => .pure _
  have hitemLines (line : List TemplateInline)
      (hl : line ∈ item.content :: item.sublist.elim [] (·.items)) :
      Alike (fails) (lineRuns options S line) (lineRuns options T line) :=
    h line (List.mem_flatMap.2 ⟨item, hi, hl⟩)
  unfold renderItem
  refine (hitemLines _ List.mem_cons_self).bind fun content => ?_
  rcases hs : item.sublist with _ | sublist
  · exact .pure _
  · refine Alike.bind ?_ fun rendered => .pure _
    unfold renderSublist
    refine Alike.bind (.mapM fun line hl => hitemLines line ?_) fun items => .pure _
    rw [hs]
    exact List.mem_cons_of_mem _ hl

/-! ### Margins -/

theorem marginParts_alike (hf : fails .outputTooLarge) (nodes : List TemplateCodeChild)
    (h : ∀ node ∈ codePlaceholders nodes,
      Alike (fails) (format options node S) (format options node T)) :
    ∀ parts, Alike (fails) (marginParts options S nodes parts)
      (marginParts options T nodes parts) := by
  induction nodes with
  | nil =>
    intro parts
    rw [marginParts, marginParts]
    exact .pure parts
  | cons node nodes ih =>
    intro parts
    cases node with
    | text value =>
      rw [marginParts, marginParts]
      exact (printed_alike hf value).bind fun text => ih h _
    | placeholder node =>
      rw [marginParts, marginParts]
      obtain ⟨hnode, hn⟩ := List.forall_mem_cons.1 h
      refine .ite (fun _ => ih hn _) fun _ => .ite (fun _ => ih hn _) fun _ => ?_
      exact hnode.bind fun text => ih hn _

theorem marginLine_alike (hf : fails .outputTooLarge) (content : Option (List TemplateCodeChild))
    (h : ∀ node ∈ codePlaceholders (content.getD []),
      Alike (fails) (format options node S) (format options node T)) :
    Alike (fails) (marginLine options S content) (marginLine options T content) := by
  cases content with
  | none => exact .pure none
  | some content => exact .map some (marginParts_alike hf content h [])

/-! ### The walk -/

/-- What is asked of two evaluations side by side, over chains of scopes that are
related and the occurrences of either side. -/
structure Walk (reading : Reading) (options : EvaluateOptions) (fails : RenderError → Prop)
    (Related : List LinkedScope → List LinkedScope → Prop) (left right : List Occurrence) :
    Prop where
  rowsExceeded : fails .rowsExceeded
  outputTooLarge : fails .outputTooLarge
  /-- A placeholder prints the same. -/
  format : ∀ {A B : List LinkedScope} {node : TemplatePlaceholder}, Related A B →
    placeholderOccurrences A node ⊆ left → placeholderOccurrences B node ⊆ right →
    Alike fails (format options node (A.map (·.scope))) (format options node (B.map (·.scope)))
  /-- A condition takes the same branch. -/
  condition : ∀ {A B : List LinkedScope} {path : TemplatePath}, Related A B →
    conditionOccurrence path A ∈ left → conditionOccurrence path B ∈ right →
    truthy (resolvePath path (A.map (·.scope))) = truthy (resolvePath path (B.map (·.scope)))
  /-- A list is absent, is refused, or is read with items that are related one by
  one. -/
  list : ∀ {A B : List LinkedScope} {path : TemplatePath}, Related A B →
    listOccurrence path A ∈ left → listOccurrence path B ∈ right →
    (Absent (resolvePath path (A.map (·.scope))) ∧ Absent (resolvePath path (B.map (·.scope)))) ∨
      (∃ error, fails error ∧ listItems path (A.map (·.scope)) = throw error ∧
        listItems path (B.map (·.scope)) = throw error) ∨
      ∃ items items' values values', reading path A = some (.array items) ∧
        reading path B = some (.array items') ∧
        resolvePath path (A.map (·.scope)) = some (.arr values) ∧
        resolvePath path (B.map (·.scope)) = some (.arr values') ∧
        values.length = values'.length ∧
        ∀ (i : ℕ) (v w : Json), values[i]? = some v → values'[i]? = some w →
          Related (itemLink items v i :: A) (itemLink items' w i :: B)

namespace Walk

variable {reading : Reading} {Related : List LinkedScope → List LinkedScope → Prop}
  {left right : List Occurrence}

variable {A B : List LinkedScope} {path : TemplatePath} {α : Type}

theorem placeholders_alike (w : Walk reading options fails Related left right) (h : Related A B)
    {nodes : List TemplatePlaceholder} (hA : nodes.flatMap (placeholderOccurrences A) ⊆ left)
    (hB : nodes.flatMap (placeholderOccurrences B) ⊆ right) :
    ∀ node ∈ nodes, Alike fails (Documents.format options node (A.map (·.scope)))
      (Documents.format options node (B.map (·.scope))) := by
  intro node hn
  refine w.format h (fun o ho => hA ?_) fun o ho => hB ?_
  · exact List.mem_flatMap.2 ⟨node, hn, ho⟩
  · exact List.mem_flatMap.2 ⟨node, hn, ho⟩

theorem line_alike (w : Walk reading options fails Related left right)
    (h : Related A B) {line : List TemplateInline}
    (hA : lineOccurrences A line ⊆ left) (hB : lineOccurrences B line ⊆ right) :
    Alike fails (lineRuns options (A.map (·.scope)) line)
      (lineRuns options (B.map (·.scope)) line) :=
  runs_alike w.outputTooLarge line {} (w.placeholders_alike h hA hB) []

/-- The lines of a row of cells, a header, a quote or a list. -/
theorem lines_alike (w : Walk reading options fails Related left right)
    (h : Related A B) {lines : List (List TemplateInline)}
    (hA : lines.flatMap (lineOccurrences A) ⊆ left)
    (hB : lines.flatMap (lineOccurrences B) ⊆ right) :
    ∀ line ∈ lines, Alike fails (lineRuns options (A.map (·.scope)) line)
      (lineRuns options (B.map (·.scope)) line) := by
  intro line hl
  refine w.line_alike h (fun o ho => hA ?_) fun o ho => hB ?_
  · exact List.mem_flatMap.2 ⟨line, hl, ho⟩
  · exact List.mem_flatMap.2 ⟨line, hl, ho⟩

/-- A list repeats its body over items that are related one by one. -/
theorem each_alike (w : Walk reading options fails Related left right)
    {inside : List LinkedScope → List Occurrence} {body : List Scope → α → Eval α}
    (h : Related A B)
    (hA : listOccurrence path A :: (itemChains reading path A).flatMap inside ⊆ left)
    (hB : listOccurrence path B :: (itemChains reading path B).flatMap inside ⊆ right)
    (hb : ∀ A' B', Related A' B' → inside A' ⊆ left → inside B' ⊆ right → ∀ into,
      Alike fails (body (A'.map (·.scope)) into) (body (B'.map (·.scope)) into))
    (into : α) :
    Alike fails (listItems path (A.map (·.scope)) >>= fun values =>
        forEach (fun value index => body ({ value, index := some index } :: A.map (·.scope)))
          values 0 into)
      (listItems path (B.map (·.scope)) >>= fun values =>
        forEach (fun value index => body ({ value, index := some index } :: B.map (·.scope)))
          values 0 into) := by
  obtain ⟨hpathA, hinsideA⟩ := List.cons_subset.1 hA
  obtain ⟨hpathB, hinsideB⟩ := List.cons_subset.1 hB
  rcases w.list h hpathA hpathB with ⟨habsentA, habsentB⟩ | ⟨error, hf, hA, hB⟩ |
    ⟨items, items', values, values', hreadA, hreadB, hvaluesA, hvaluesB, hl, hi⟩
  · rw [listItems_of_absent habsentA, listItems_of_absent habsentB, pure_bind, pure_bind]
    exact .pure into
  · rw [hA, hB]
    exact .throw_bind hf _ _
  · rw [listItems_of_values hvaluesA, listItems_of_values hvaluesB, bind_assoc, bind_assoc, hl]
    refine (countRows_alike w.rowsExceeded values'.length).bind fun _ => ?_
    rw [pure_bind, pure_bind]
    refine forEach_alike hl 0 (fun i v v' hv hv' into => ?_) into
    rw [Nat.zero_add]
    refine hb _ _ (hi i v v' hv hv') (fun o ho => hinsideA ?_) (fun o ho => hinsideB ?_) into
    · exact List.mem_flatMap.2 ⟨_, mem_itemChains hreadA hvaluesA hv, ho⟩
    · exact List.mem_flatMap.2 ⟨_, mem_itemChains hreadB hvaluesB hv', ho⟩

/-- A condition takes the same branch on both sides. -/
theorem condition_alike (w : Walk reading options fails Related left right)
    {thnA otherwiseA thnB otherwiseB : List Occurrence} {thn thn' otherwise otherwise' : Eval α}
    (h : Related A B)
    (hA : conditionOccurrence path A ::
      ((if false || truthy (resolvePath path (A.map (·.scope))) then thnA else []) ++
        if false || !truthy (resolvePath path (A.map (·.scope))) then otherwiseA else []) ⊆ left)
    (hB : conditionOccurrence path B ::
      ((if false || truthy (resolvePath path (B.map (·.scope))) then thnB else []) ++
        if false || !truthy (resolvePath path (B.map (·.scope))) then otherwiseB else []) ⊆ right)
    (hthn : thnA ⊆ left → thnB ⊆ right → Alike fails thn thn')
    (ho : otherwiseA ⊆ left → otherwiseB ⊆ right → Alike fails otherwise otherwise') :
    Alike fails (if truthy (resolvePath path (A.map (·.scope))) then thn else otherwise)
      (if truthy (resolvePath path (B.map (·.scope))) then thn' else otherwise') := by
  obtain ⟨hpathA, hbranchA⟩ := List.cons_subset.1 hA
  obtain ⟨hpathB, hbranchB⟩ := List.cons_subset.1 hB
  rw [← w.condition h hpathA hpathB] at hbranchB ⊢
  rcases htru : truthy (resolvePath path (A.map (·.scope))) with _ | _
  · rw [htru] at hbranchA hbranchB ⊢
    exact ho (by simpa using hbranchA) (by simpa using hbranchB)
  · rw [htru] at hbranchA hbranchB ⊢
    exact hthn (by simpa using hbranchA) (by simpa using hbranchB)

mutual

theorem rowBody_alike (w : Walk reading options fails Related left right) :
    ∀ (row : TemplateRow) (A B : List LinkedScope), Related A B →
    rowOccurrences reading false row A ⊆ left → rowOccurrences reading false row B ⊆ right →
      ∀ into, Alike fails (rowBody options row (A.map (·.scope)) into)
        (rowBody options row (B.map (·.scope)) into)
  | .row cells _, A, B, h, hA, hB, into => by
    rw [rowOccurrences] at hA hB
    rw [rowBody, rowBody]
    exact Alike.bind (.mapM (w.lines_alike h hA hB)) fun cells => .pure _
  | .each path children _, A, B, h, hA, hB, into => by
    rw [rowOccurrences] at hA hB
    rw [rowBody, rowBody]
    exact w.each_alike h hA hB (fun A' B' h' hA' hB' => w.rows_alike children A' B' h' hA' hB') into
  | .if path thn otherwise _, A, B, h, hA, hB, into => by
    rw [rowOccurrences] at hA hB
    rw [rowBody, rowBody]
    exact w.condition_alike h hA hB (fun hA' hB' => w.rows_alike thn A B h hA' hB' into)
      fun hA' hB' => w.rows_alike otherwise A B h hA' hB' into

theorem rows_alike (w : Walk reading options fails Related left right) :
    ∀ (source : List TemplateRow) (A B : List LinkedScope), Related A B →
    rowsOccurrences reading false source A ⊆ left →
    rowsOccurrences reading false source B ⊆ right →
      ∀ into, Alike fails (rows options source (A.map (·.scope)) into)
        (rows options source (B.map (·.scope)) into)
  | [], A, B, _, _, _, into => by
    rw [rows, rows]
    exact .pure into
  | row :: source, A, B, h, hA, hB, into => by
    rw [rowsOccurrences, List.append_subset] at hA hB
    rw [rows, rows]
    exact (w.rowBody_alike row A B h hA.1 hB.1 into).bind (w.rows_alike source A B h hA.2 hB.2)

end

mutual

theorem blockBody_alike (w : Walk reading options fails Related left right) :
    ∀ (block : TemplateBlock) (A B : List LinkedScope), Related A B →
    blockOccurrences reading false block A ⊆ left →
    blockOccurrences reading false block B ⊆ right →
      ∀ into, Alike fails (blockBody options block (A.map (·.scope)) into)
        (blockBody options block (B.map (·.scope)) into)
  | .heading _ content _, A, B, h, hA, hB, into => by
    rw [blockOccurrences] at hA hB
    rw [blockBody, blockBody]
    exact (w.line_alike h hA hB).bind fun content => .pure _
  | .paragraph content _, A, B, h, hA, hB, into => by
    rw [blockOccurrences] at hA hB
    rw [blockBody, blockBody]
    exact (w.line_alike h hA hB).bind fun content => .pure _
  | .list list _, A, B, h, hA, hB, into => by
    rw [blockOccurrences] at hA hB
    rw [blockBody, blockBody]
    exact (renderList_alike (w.lines_alike h hA hB)).bind fun list => .pure _
  | .quote paragraphs _, A, B, h, hA, hB, into => by
    rw [blockOccurrences] at hA hB
    rw [blockBody, blockBody]
    exact Alike.bind (.mapM (w.lines_alike h hA hB)) fun paragraphs => .pure _
  | .rule _, _, _, _, _, _, into => by
    rw [blockBody, blockBody]
    exact .pure _
  | .pagebreak _, _, _, _, _, _, into => by
    rw [blockBody, blockBody]
    exact .pure _
  | .table _ header source _, A, B, h, hA, hB, into => by
    rw [blockOccurrences, List.append_subset] at hA hB
    rw [blockBody, blockBody]
    refine (w.rows_alike source A B h hA.2 hB.2 []).bind fun body => ?_
    exact Alike.bind (.mapM (w.lines_alike h hA.1 hB.1)) fun header => .pure _
  | .each path children _, A, B, h, hA, hB, into => by
    rw [blockOccurrences] at hA hB
    rw [blockBody, blockBody]
    exact w.each_alike h hA hB (fun A' B' h' hA' hB' => w.blocks_alike children A' B' h' hA' hB') into
  | .if path thn otherwise _, A, B, h, hA, hB, into => by
    rw [blockOccurrences] at hA hB
    rw [blockBody, blockBody]
    exact w.condition_alike h hA hB (fun hA' hB' => w.blocks_alike thn A B h hA' hB' into)
      fun hA' hB' => w.blocks_alike otherwise A B h hA' hB' into

theorem blocks_alike (w : Walk reading options fails Related left right) :
    ∀ (source : List TemplateBlock) (A B : List LinkedScope), Related A B →
    blocksOccurrences reading false source A ⊆ left →
    blocksOccurrences reading false source B ⊆ right →
      ∀ into, Alike fails (blocks options source (A.map (·.scope)) into)
        (blocks options source (B.map (·.scope)) into)
  | [], A, B, _, _, _, into => by
    rw [blocks, blocks]
    exact .pure into
  | block :: source, A, B, h, hA, hB, into => by
    rw [blocksOccurrences, List.append_subset] at hA hB
    rw [blocks, blocks]
    exact (w.blockBody_alike block A B h hA.1 hB.1 into).bind (w.blocks_alike source A B h hA.2 hB.2)

end

theorem renderTemplate_alike (w : Walk reading options fails Related left right)
    {template : CompiledTemplate}
    (h : Related A B)
    (hA : blocksOccurrences reading false template.blocks A ++
      (codePlaceholders template.lines).flatMap (placeholderOccurrences A) ⊆ left)
    (hB : blocksOccurrences reading false template.blocks B ++
      (codePlaceholders template.lines).flatMap (placeholderOccurrences B) ⊆ right) :
    Alike fails (renderTemplate template (A.map (·.scope)) options)
      (renderTemplate template (B.map (·.scope)) options) := by
  rw [List.append_subset] at hA hB
  have hl := w.placeholders_alike h hA.2 hB.2
  have hs : codePlaceholders template.lines = codePlaceholders template.title ++
      codePlaceholders (template.header.getD []) ++ codePlaceholders (template.footer.getD []) := by
    simp only [CompiledTemplate.lines, codePlaceholders, List.flatMap_append]
  rw [hs, List.forall_mem_append, List.forall_mem_append] at hl
  obtain ⟨⟨htit, hh⟩, hf⟩ := hl
  unfold renderTemplate
  refine (w.blocks_alike template.blocks A B h hA.1 hB.1 []).bind fun rendered => ?_
  refine (codeRuns_alike w.outputTooLarge _ _ htit _).bind fun title => ?_
  refine (marginLine_alike w.outputTooLarge _ hh).bind fun header => ?_
  refine (marginLine_alike w.outputTooLarge _ hf).bind fun footer => ?_
  exact Alike.get.bind fun counters => .pure _

end Walk

end Flowdular.Documents
