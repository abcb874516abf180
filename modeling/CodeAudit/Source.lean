namespace CodeAudit

/-- The endings of the files that a scan takes up. -/
def sourceExtensions : List String :=
  [".py", ".pyi", ".js", ".jsx", ".mjs", ".cjs", ".ts", ".tsx", ".mts", ".cts", ".go", ".java",
   ".rb", ".php", ".rs", ".c", ".h", ".cpp", ".hpp", ".cs", ".swift", ".kt", ".kts", ".scala",
   ".sh", ".bash", ".yaml", ".yml", ".json", ".toml", ".tf", ".sql", ".css", ".scss", ".sass",
   ".less", ".svelte", ".vue"]

end CodeAudit
