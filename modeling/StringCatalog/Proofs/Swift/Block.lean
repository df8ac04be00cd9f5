import StringCatalog.Proofs.Swift.Listing

/-! Blocks of lines that are read back to where they began: what they open they close, whatever is
around them, and in between they show their members. -/

namespace StringCatalog.Swift

/-- A line at a depth; an empty line stays empty. -/
def indentedBy (width depth : Nat) (line : Text) : Text :=
  if line = [] then [] else Text.copies (width * depth) ' ' ++ line

theorem indentedBy_indented (width depth : Nat) (line : Text) :
    indentedBy width depth (indented (Text.copies width ' ') line) =
      indentedBy width (depth + 1) line := by
  unfold indented
  by_cases hline : line = []
  · simp [hline, indentedBy]
  · have hcopies : Text.copies (width * depth) (.char ' ') ++ Text.copies width (.char ' ') =
        Text.copies (width * (depth + 1)) (.char ' ') := by
      rw [Nat.mul_succ]
      exact List.replicate_append_replicate
    rw [if_neg hline, indentedBy, indentedBy, if_neg hline, if_neg (by simp [hline]),
      ← List.append_assoc, hcopies]

theorem isLine_indented (width : Nat) {line : Text} (h : line.IsLine) :
    (indented (Text.copies width ' ') line).IsLine := by
  unfold indented
  split
  · exact Text.IsLine.nil
  · exact (Text.IsLine.copies width (by decide)).append h

theorem AccessLevel.isLine_modifier (level : AccessLevel) : level.modifier.IsLine := by
  cases level <;> decide

namespace Listing

variable {access typeName : Text} {width : Nat}

theorem readLines_append (l : Listing) (ls ls' : List Text) :
    readLines access typeName width l (ls ++ ls') =
      (readLines access typeName width l ls).bind fun l' =>
        readLines access typeName width l' ls' :=
  List.foldlM_append

theorem readLines_cons (l : Listing) (line : Text) (ls : List Text) :
    readLines access typeName width l (line :: ls) =
      (readLine access typeName width l line).bind fun l' =>
        readLines access typeName width l' ls :=
  List.foldlM_cons

/-- An indented line at its depth is read by its kind. -/
theorem readLine_indentedBy (width : Nat) (l : Listing) {content : Text} {kind : LineKind}
    (hstart : ∃ c rest, content = c :: rest ∧ c ≠ .char ' ')
    (hkind : lineKind access typeName content = some kind) :
    readLine access typeName width l (indentedBy width (l.depth kind) content) = l.step kind := by
  obtain ⟨c, rest, rfl, hc⟩ := hstart
  have hcontent : ∀ n, (Text.copies n (.char ' ') ++ c :: rest).dropWhile (· == .char ' ') =
      c :: rest := by
    intro n
    rw [List.dropWhile_append_of_pos fun d hd => by simp [List.eq_of_mem_replicate hd]]
    simp [hc]
  rw [indentedBy, if_neg (List.cons_ne_nil c rest), readLine, if_neg (by simp)]
  dsimp only
  rw [hcontent, hkind]
  exact if_pos rfl

/-- The lines, at the depth of the inside of the blocks, close every block that they open and show
the members. -/
structure Shows (access typeName : Text) (width : Nat) (blocks : List Block) (ls : List Text)
    (found : List Member) : Prop where
  isLine : ∀ line ∈ ls, line.IsLine
  read : ∀ members, readLines access typeName width ⟨blocks, members⟩
    (ls.map (indentedBy width (blocks.length + 1))) = some ⟨blocks, members ++ found⟩

namespace Shows

variable {blocks : List Block} {ls ls' : List Text} {found found' : List Member}

theorem nil : Shows access typeName width blocks [] [] :=
  ⟨by simp, fun members => by simp [readLines]⟩

theorem append (h : Shows access typeName width blocks ls found)
    (h' : Shows access typeName width blocks ls' found') :
    Shows access typeName width blocks (ls ++ ls') (found ++ found') := by
  constructor
  · intro line hline
    rcases List.mem_append.mp hline with hleft | hright
    · exact h.isLine line hleft
    · exact h'.isLine line hright
  · intro members
    rw [List.map_append, readLines_append, h.read, Option.bind_some, h'.read, List.append_assoc]

/-- An empty line shows nothing. -/
theorem blank : Shows access typeName width blocks [[]] [] :=
  ⟨by simp, fun members => by simp [readLines, readLine, indentedBy]⟩

/-- A comment shows nothing. -/
theorem comment {line : Text} (hline : line.IsLine) (h : Text.ofString "///" <+: line) :
    Shows access typeName width blocks [line] [] := by
  have hkind : lineKind access typeName line = some .comment := by rw [lineKind, if_pos h]
  have hstart : ∃ c rest, line = c :: rest ∧ c ≠ .char ' ' := by
    obtain ⟨rest, rfl⟩ := h
    exact ⟨_, _, rfl, by decide⟩
  refine ⟨fun l hl => List.mem_singleton.mp hl ▸ hline, fun members => ?_⟩
  have hread := readLine_indentedBy width ⟨blocks, members⟩ hstart hkind
  have hdepth : depth ⟨blocks, members⟩ .comment = blocks.length + 1 := rfl
  rw [hdepth] at hread
  rw [List.map_singleton, readLines_cons, hread, List.append_nil]
  rfl

theorem comments (h : ∀ line ∈ ls, line.IsLine ∧ Text.ofString "///" <+: line) :
    Shows access typeName width blocks ls [] := by
  induction ls with
  | nil => exact nil
  | cons line ls ih =>
    obtain ⟨hline, hslashes⟩ := h line List.mem_cons_self
    exact (comment hline hslashes).append (ih fun l hl => h l (List.mem_cons_of_mem line hl))

/-- The blocks of a listing with empty lines between them show what the blocks show. -/
theorem separated {parts : List (List Text)} {founds : List (List Member)}
    (h : List.Forall₂ (Shows access typeName width blocks) parts founds) :
    Shows access typeName width blocks (Swift.separated parts) founds.flatten := by
  induction h with
  | nil => exact nil
  | @cons part found parts founds hpart hparts ih =>
    cases hparts with
    | nil => simpa [Swift.separated] using hpart
    | cons hnext hrest => exact hpart.append (blank.append ih)

/-- A block with its first and last lines: it is opened, its inside is read in it, and it is
closed. -/
theorem block (inner inner' : Block) {header : Text} {kind : LineKind} {added : List Member}
    (hline : header.IsLine) (hstart : ∃ c rest, header = c :: rest ∧ c ≠ .char ' ')
    (hkind : lineKind access typeName header = some kind)
    (hdepth : ∀ members, depth ⟨blocks, members⟩ kind = blocks.length + 1)
    (hopen : ∀ members, step ⟨blocks, members⟩ kind = some ⟨inner :: blocks, members⟩)
    (hls : ∀ line ∈ ls, line.IsLine)
    (hread : ∀ members, readLines access typeName width ⟨inner :: blocks, members⟩
      (ls.map (indentedBy width (blocks.length + 2))) = some ⟨inner' :: blocks, members ++ found⟩)
    (hclose : ∀ members, step ⟨inner' :: blocks, members⟩ .closing =
      some ⟨blocks, members ++ added⟩) :
    Shows access typeName width blocks
      (header :: (ls.map (indented (Text.copies width ' ')) ++ [closingLine]))
      (found ++ added) := by
  constructor
  · intro line hmem
    rcases List.mem_cons.mp hmem with rfl | hmem
    · exact hline
    · rcases List.mem_append.mp hmem with hinside | hlast
      · obtain ⟨line, hline, rfl⟩ := List.mem_map.mp hinside
        exact isLine_indented width (hls line hline)
      · rw [List.mem_singleton.mp hlast]
        decide
  · intro members
    have hfirst := readLine_indentedBy width ⟨blocks, members⟩ hstart hkind
    have hbrace : ∃ c rest, closingLine = c :: rest ∧ c ≠ .char ' ' := ⟨_, _, rfl, by decide⟩
    have hlast := readLine_indentedBy width ⟨inner' :: blocks, members ++ found⟩ hbrace
      (lineKind_closingLine access typeName)
    have hclosing : depth ⟨inner' :: blocks, members ++ found⟩ .closing = blocks.length + 1 := rfl
    rw [hdepth, hopen] at hfirst
    rw [hclosing, hclose] at hlast
    have hdeeper : (ls.map (indented (Text.copies width ' '))).map
        (indentedBy width (blocks.length + 1)) = ls.map (indentedBy width (blocks.length + 2)) := by
      rw [List.map_map]
      exact List.map_congr_left fun line _ => indentedBy_indented width _ line
    rw [List.map_cons, List.map_append, hdeeper, readLines_cons, hfirst, Option.bind_some,
      readLines_append, hread, Option.bind_some, List.map_singleton, readLines_cons, hlast,
      List.append_assoc]
    rfl

/-- An enumeration shows what its inside shows. -/
theorem enumeration {style : Style} {name : Text} (haccess : access = style.accessLevel.modifier)
    (hwidth : style.indent = Text.copies width ' ') (hopen : mayOpen ⟨blocks, []⟩ = true)
    (h : Shows access typeName width (.enumeration (typeIdentifier name) :: blocks) ls found) :
    Shows access typeName width blocks
      (enumHeader style name :: (ls.map (indented style.indent) ++ [closingLine])) found := by
  subst haccess
  have hkind := lineKind_enumHeader style typeName name
  obtain ⟨c, rest, hmodifier, hc, -, -⟩ := style.accessLevel.exists_modifier
  have hstart : ∃ c rest, enumHeader style name = c :: rest ∧ c ≠ .char ' ' := by
    rw [enumHeader, hmodifier]
    exact ⟨c, _, rfl, hc⟩
  have hline : (enumHeader style name).IsLine := by
    have henum : (Text.ofString " enum ").IsLine := by decide
    have hbrace : (Text.ofString " \x7b").IsLine := by decide
    exact ((style.accessLevel.isLine_modifier.append henum).append
      (isUnbroken_typeIdentifier name).isLine).append hbrace
  have hstep : ∀ members, step ⟨blocks, members⟩ (.enumeration (typeIdentifier name)) =
      some ⟨.enumeration (typeIdentifier name) :: blocks, members⟩ := by
    intro members
    rw [step]
    exact if_pos hopen
  rw [hwidth, ← List.append_nil found]
  exact block _ _ hline hstart hkind (fun _ => rfl) hstep h.isLine h.read fun members => by
    rw [List.append_nil]
    rfl

end Shows

end Listing

end StringCatalog.Swift
