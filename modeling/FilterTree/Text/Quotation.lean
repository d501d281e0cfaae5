import FilterTree.Text.Digits
import FilterTree.Text.Unprintable

/-!
# Quotations

A text shown to people stands in double quotes, with everything in it made
visible. The quote and the backslash follow a backslash; the tab, the line
ends and the null character have letters for them; and every other
character without a shape of its own is given by its number. The apostrophe
stays as it is, since it ends nothing here.
-/

namespace FilterTree

/-- **One character of a quotation**, in front of what follows. -/
def showChar (c : Char) (rest : List Char) : List Char :=
  if c = '"' then '\\' :: '"' :: rest
  else if c = '\\' then '\\' :: '\\' :: rest
  else if c = '\x00' then '\\' :: '0' :: rest
  else if c = '\t' then '\\' :: 't' :: rest
  else if c = '\n' then '\\' :: 'n' :: rest
  else if c = '\r' then '\\' :: 'r' :: rest
  else if isUnprintable c then '\\' :: 'u' :: '\x7b' :: (spelling 16 c.toNat ++ '\x7d' :: rest)
  else c :: rest

/-- **A quotation**, in front of what follows. -/
def quotation (s : String) (rest : List Char) : List Char :=
  '"' :: s.toList.foldr showChar ('"' :: rest)

end FilterTree
