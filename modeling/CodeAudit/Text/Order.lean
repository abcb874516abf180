namespace CodeAudit.Text

/-- Whether a text comes before another by their characters in order, or is the same. -/
def atMost : List Char → List Char → Bool
  | [], _ => true
  | _ :: _, [] => false
  | c :: cs, d :: ds => c.toNat < d.toNat || (c == d && atMost cs ds)

end CodeAudit.Text
