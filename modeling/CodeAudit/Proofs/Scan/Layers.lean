import CodeAudit.Proofs.Pattern.Layers
import CodeAudit.Proofs.Scan.Inventory
namespace CodeAudit.IgnoreFilter
open Pattern

/-- The lines for a directory with those of the project, each layer by itself. -/
def layerLines (files : FileTree) (directory : Place) (exclude project : List String) :
    List (List String) :=
  [builtinLines, exclude, project, ownLines files directory]

theorem flatten_layerLines (files : FileTree) (directory : Place) (exclude project : List String) :
    (layerLines files directory exclude project).flatten =
      builtinLines ++ exclude ++ project ++ ownLines files directory := by
  simp [layerLines]

theorem ofLines_append {lines more : List String} {f : IgnoreFilter}
    (h : ofLines (lines ++ more) = .ok f) :
    ∃ first last, ofLines lines = .ok first ∧ ofLines more = .ok last ∧
      f.patterns = first.patterns ++ last.patterns := by
  have hp := ofLines_patterns h
  rw [clean_append] at hp
  obtain ⟨first, last, hfirst, hlast, hsplit⟩ := Pattern.ofLines_append.mp hp
  exact ⟨_, _, map_eq_ok.mpr ⟨first, hfirst, rfl⟩, map_eq_ok.mpr ⟨last, hlast, rfl⟩, hsplit⟩

/-- The filter of all layers holds the patterns of their filters, layer by layer. -/
theorem ofLines_flatten {lines : List (List String)} {f : IgnoreFilter}
    (h : ofLines lines.flatten = .ok f) :
    ∃ layers : List IgnoreFilter, lines.map ofLines = layers.map .ok ∧
      f.patterns = (layers.map (·.patterns)).flatten := by
  induction lines generalizing f with
  | nil =>
    cases h
    exact ⟨[], rfl, rfl⟩
  | cons own rest ih =>
    obtain ⟨first, last, hfirst, hlast, hsplit⟩ := ofLines_append h
    obtain ⟨layers, hlayers, hrest⟩ := ih hlast
    refine ⟨first :: layers, ?_, ?_⟩
    · rw [List.map_cons, List.map_cons, hfirst, hlayers]
    · rw [hsplit, hrest, List.map_cons, List.flatten_cons]

/-- Whether a path is none below the directory, so that it is never left out. -/
def outside (path : String) : Bool :=
  (turned path).isEmpty || ['.', '.', '/'].isPrefixOf (turned path)

theorem ignores_iff (f : IgnoreFilter) (path : String) :
    f.ignores path = true ↔
      outside path = false ∧ verdict f.patterns (subject (turned path)) = true := by
  simp only [ignores, outside]
  split
  · next h => simp [h]
  · next h => simp [h]

/-- What several layers leave out together, one of them leaves out by itself. -/
theorem exists_layer_ignores {f : IgnoreFilter} {layers : List IgnoreFilter}
    (hf : f.patterns = (layers.map (·.patterns)).flatten) {path : String}
    (h : f.ignores path = true) : ∃ layer ∈ layers, layer.ignores path = true := by
  obtain ⟨hinside, hverdict⟩ := (f.ignores_iff path).mp h
  obtain ⟨p, hp, hpositive⟩ := verdict_iff.mp hverdict
  rw [hf] at hp
  obtain ⟨patterns, hmem, hown⟩ := hp.of_flatten
  obtain ⟨layer, hlayer, rfl⟩ := List.mem_map.mp hmem
  exact ⟨layer, hlayer,
    (layer.ignores_iff path).mpr ⟨hinside, verdict_iff.mpr ⟨p, hown, hpositive⟩⟩⟩

/-- Where a layer leaves a path out by itself, all layers together have a pattern to decide about
it. -/
theorem exists_lastWord_of_layer {f : IgnoreFilter} {layers : List IgnoreFilter}
    (hf : f.patterns = (layers.map (·.patterns)).flatten) {path : String} {layer : IgnoreFilter}
    (hlayer : layer ∈ layers) (h : layer.ignores path = true) :
    outside path = false ∧ ∃ q, LastWord f.patterns (subject (turned path)) q := by
  obtain ⟨hinside, hverdict⟩ := (layer.ignores_iff path).mp h
  obtain ⟨p, hp, -⟩ := verdict_iff.mp hverdict
  refine ⟨hinside, exists_lastWord ⟨p, ?_, hp.hit⟩⟩
  rw [hf]
  exact List.mem_flatten_of_mem (List.mem_map_of_mem hlayer) hp.mem

/-- A path is left out of a directory exactly if some layer leaves it out by itself and no negated
pattern, of whatever layer, has the last word on it. Only without negated patterns is this the
union of the layers. -/
theorem ofDirectory_ignores (wording : Wording) (files : FileTree) (directory : Place)
    (exclude : List String) (f : IgnoreFilter)
    (h : ofDirectory wording files directory exclude = .ok f) :
    ∃ project, projectLines files directory = .ok project ∧ ∃ layers : List IgnoreFilter,
      (layerLines files directory exclude project).map ofLines = layers.map .ok ∧
      f.patterns = (layers.map (·.patterns)).flatten ∧
      ∀ path,
        (f.ignores path = true ↔
          (∃ layer ∈ layers, layer.ignores path = true) ∧
            ¬ ∃ q, LastWord f.patterns (subject (turned path)) q ∧ q.negated = true) ∧
        ((∀ q ∈ f.patterns, q.negated = false) →
          (f.ignores path = true ↔ ∃ layer ∈ layers, layer.ignores path = true)) := by
  obtain ⟨project, hproject, h⟩ := ofDirectory_eq_ok.mp h
  rw [← flatten_layerLines] at h
  obtain ⟨layers, hlayers, hf⟩ := ofLines_flatten h
  have hexact (path : String) : f.ignores path = true ↔
      (∃ layer ∈ layers, layer.ignores path = true) ∧
        ¬ ∃ q, LastWord f.patterns (subject (turned path)) q ∧ q.negated = true := by
    constructor
    · intro hf'
      refine ⟨exists_layer_ignores hf hf', fun hnegated => ?_⟩
      obtain ⟨q, hq, hn⟩ := hnegated
      have hverdict := ((f.ignores_iff path).mp hf').2
      rw [hq.verdict_eq, hn] at hverdict
      exact Bool.noConfusion hverdict
    · intro hlayer
      obtain ⟨⟨layer, hmem, hown⟩, hnone⟩ := hlayer
      obtain ⟨hinside, q, hq⟩ := exists_lastWord_of_layer hf hmem hown
      refine (f.ignores_iff path).mpr ⟨hinside, verdict_iff.mpr ⟨q, hq, ?_⟩⟩
      cases hn : q.negated with
      | false => rfl
      | true => exact absurd ⟨q, hq, hn⟩ hnone
  refine ⟨project, hproject, layers, hlayers, hf, fun path => ⟨hexact path, fun hpositive => ?_⟩⟩
  rw [hexact path, and_iff_left]
  intro hnegated
  obtain ⟨q, hq, hn⟩ := hnegated
  rw [hpositive q hq.mem] at hn
  exact Bool.noConfusion hn

/-- A directory that always holds is left out, but its ignore file takes one file back in. -/
theorem ofDirectory_ignores_sample :
    ∃ f always,
      ofDirectory Host.sampleHost.wording Host.sampleTree Host.sampleRoot.names [] = .ok f ∧
      ofLines builtinLines = .ok always ∧ always.ignores "dist/keep.py" = true ∧
      f.ignores "dist/keep.py" = false ∧
      ∃ q, LastWord f.patterns (subject (turned "dist/keep.py")) q ∧ q.negated = true := by
  obtain ⟨f, always, hf, halways, -, -, -, hopen, hclosed⟩ := Host.sample_filter
  obtain ⟨project, -, layers, hlayers, -, hexact⟩ :=
    ofDirectory_ignores Host.sampleHost.wording Host.sampleTree Host.sampleRoot.names [] f hf
  refine ⟨f, always, hf, halways, hclosed, hopen, ?_⟩
  have hmem : always ∈ layers := by
    have hin : ofLines builtinLines ∈ layers.map Except.ok := hlayers ▸ by simp [layerLines]
    obtain ⟨layer, hlayer, he⟩ := List.mem_map.mp hin
    rw [halways] at he
    exact Except.ok.inj he ▸ hlayer
  apply Classical.byContradiction
  intro hnone
  have htaken := (hexact "dist/keep.py").1.mpr ⟨⟨always, hmem, hclosed⟩, hnone⟩
  rw [hopen] at htaken
  exact Bool.noConfusion htaken

end CodeAudit.IgnoreFilter
