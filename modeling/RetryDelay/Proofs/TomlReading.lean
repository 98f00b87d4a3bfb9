import RetryDelay.Options.Document
import RetryDelay.Proofs.TomlRendering

set_option autoImplicit false

namespace RetryDelay
open Document Document.Toml

namespace Document.Toml
variable {l : Binary64.Layout} {es : List (String × Literal)} {c : Char}

theorem unifyLines_eq {s : List Char} (h : ∀ c ∈ s, c ≠ '\r') : unifyLines s = s := by
  induction s with
  | nil => rfl
  | cons c s ih =>
    obtain ⟨hc, hs⟩ := List.forall_mem_cons.1 h
    rw [unifyLines, ih hs]
    exact fun _ h _ => hc h

theorem ne_return_of_mem_key {k : String} (h : c ∈ key k) : c ≠ '\r' := by
  unfold key at h
  split at h
  next hk =>
    rintro rfl
    cases List.all_eq_true.1 hk.2 _ h
  next => exact ne_return_of_mem_basic h

theorem ne_return_of_mem_items {vs : List Literal}
    (hvs : ∀ v ∈ vs, ∀ c ∈ rendered l v, c ≠ '\r') : ∀ c ∈ items l vs, c ≠ '\r' := by
  induction vs with
  | nil => exact List.forall_mem_nil _
  | cons v vs ih =>
    obtain ⟨hv, hvs⟩ := List.forall_mem_cons.1 hvs
    cases vs with
    | nil => exact hv
    | cons w vs =>
      rw [items]
      simp only [List.forall_mem_append, List.forall_mem_cons]
      exact ⟨hv, by decide, by decide, ih hvs⟩

theorem ne_return_of_mem_rendered (hl : l.Pointed) {v : Literal} (h : Renderable v) :
    ∀ c ∈ rendered l v, c ≠ '\r' := by
  induction h with
  | scalar h => exact (h.isWord hl).ne_return
  | sequence h ih =>
    rw [rendered]
    simp only [List.forall_mem_append, List.forall_mem_cons]
    exact ⟨by decide, ne_return_of_mem_items ih, by decide, List.forall_mem_nil _⟩

theorem ne_return_of_mem_document (hl : l.Pointed) (h : ∀ e ∈ es, Renderable e.2) :
    ∀ c ∈ document l es, c ≠ '\r' := by
  intro c hc
  obtain ⟨e, he, hc⟩ := List.mem_flatMap.1 hc
  have hline : ∀ c ∈ line l e, c ≠ '\r' := by
    simp only [line, List.forall_mem_append, List.forall_mem_cons]
    exact ⟨fun c => ne_return_of_mem_key, by decide, by decide, by decide,
      ne_return_of_mem_rendered hl (h e he), by decide, List.forall_mem_nil _⟩
  exact hline c hc

theorem key_cons (k : String) : ∃ c s, key k = c :: s ∧ c ≠ '\ufeff' := by
  unfold key
  split
  next hk =>
    obtain ⟨c, s, hs⟩ := List.exists_cons_of_ne_nil hk.1
    refine ⟨c, s, hs, ?_⟩
    rintro rfl
    cases List.all_eq_true.1 hk.2 '\ufeff' (by simp [hs])
  next => exact ⟨_, _, rfl, by decide⟩

theorem dropByteOrderMark_document (l : Binary64.Layout) (es : List (String × Literal)) :
    dropByteOrderMark (document l es) = document l es := by
  cases es with
  | nil => rfl
  | cons e es =>
    obtain ⟨c, s, hs, hc⟩ := key_cons e.1
    rw [document, List.flatMap_cons, line, hs, List.cons_append, List.cons_append,
      dropByteOrderMark]
    exact fun _ h => hc (List.cons.inj h).1

theorem entries?_document (hl : l.Pointed) (h : ∀ e ∈ es, Renderable e.2) :
    entries? (String.ofList (document l es))
      = if (∀ e ∈ es, e.2.depth ≤ maxNesting) ∧ (es.map Prod.fst).Nodup
        then some (es.map Literal.entry) else none := by
  have hkeys : (es.map Literal.entry).map Prod.fst = es.map Prod.fst := by
    rw [List.map_map]
    rfl
  rw [entries?, String.toList_ofList, dropByteOrderMark_document,
    unifyLines_eq (ne_return_of_mem_document hl h), entriesFrom_document hl h, ite_and]
  by_cases hdepth : ∀ e ∈ es, e.2.depth ≤ maxNesting
  · rw [if_pos hdepth, if_pos hdepth]
    dsimp only
    rw [hkeys]
  · rw [if_neg hdepth, if_neg hdepth]

end Document.Toml

theorem Options.ofToml_document {l : Binary64.Layout} (hl : l.Pointed)
    {es : List (String × Literal)} (h : ∀ e ∈ es, Renderable e.2) :
    Options.ofToml (String.ofList (document l es))
      = if (∀ e ∈ es, e.2.depth ≤ maxNesting) ∧ (es.map Prod.fst).Nodup
        then (Given.ofEntries (es.map Literal.entry)).mapError .data else .error .malformed := by
  rw [Options.ofToml, entries?_document hl h]
  by_cases hform : (∀ e ∈ es, e.2.depth ≤ maxNesting) ∧ (es.map Prod.fst).Nodup
  · rw [if_pos hform, if_pos hform]
  · rw [if_neg hform, if_neg hform]

end RetryDelay
