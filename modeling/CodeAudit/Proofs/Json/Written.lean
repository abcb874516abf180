import CodeAudit.Json.Writer
namespace CodeAudit.Json
variable {layout : Layout} {document part v : Json}

/-- However a document is laid out, a value is written somewhere in it. -/
def Shows (document v : Json) : Prop :=
  ∀ layout, ∃ inner, written inner v <:+: written layout document

theorem Shows.trans (hp : Shows document part) (hv : Shows part v) : Shows document v := by
  intro layout
  obtain ⟨between, hpart⟩ := hp layout
  obtain ⟨inner, hinner⟩ := hv between
  exact ⟨inner, hinner.trans hpart⟩

end CodeAudit.Json
