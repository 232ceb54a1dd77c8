/-!
# Boxes

Titles are drawn in boxes. A box is at least 50 and at most 80 cells wide inside; a text that is
wider than the box sticks out of it.
-/

namespace SourceRecovery.Box

def cells (count : Nat) (c : Char) : String := String.ofList (List.replicate count c)

/-- The inner width of a box for some texts. -/
def width (title subtitle : String) : Nat :=
  min 80 (max 50 (max (title.length + 6) (subtitle.length + 6)))

/-- A text between blanks, in the middle of a width; where the blanks cannot be the same, there
is one more on the right. -/
def centered (width : Nat) (s : String) : String :=
  cells ((width - s.length) / 2) ' ' ++ s ++ cells (width - s.length - (width - s.length) / 2) ' '

/-- The lines of a box around a title and a subtitle, which is left out when it is empty. -/
def lines (title subtitle : String) : List String :=
  let w := width title subtitle
  let inside := if subtitle.isEmpty then [title] else [title, subtitle]
  ["╔" ++ cells w '═' ++ "╗"] ++ inside.map (fun s => "║" ++ centered w s ++ "║") ++
    ["╚" ++ cells w '═' ++ "╝"]

end SourceRecovery.Box
