import StringCatalog.Proofs.Catalog.Schema
import StringCatalog.Proofs.Json.Keyed
import StringCatalog.Proofs.Text.Basic

/-! The flattening of variations. Every text that axes and cases lead to is there once, under the
names on its path, and the texts come in the order of the document: that of a case before those that
are nested in it, and otherwise as the axes and cases stand. -/

namespace StringCatalog

open Catalog (Members member)

namespace Json

/-- The members of an object; other values have none. -/
def members : Json → Members
  | object members => members
  | _ => []

/-- The axes of variation in a node. -/
def axes (node : Json) : Members := (member "variations" node.members).members

/-- The node that the names of axes and of their cases lead to, in turn. -/
def nodeAt? (node : Json) : List Text → Option Json
  | [] => some node
  | [_] => none
  | axis :: case :: path => do
    let cases ← OrderedMap.get? node.axes axis
    let next ← OrderedMap.get? cases.members case
    next.nodeAt? path

theorem nodeAt?_eq_some_iff {node found : Json} {axis case : Text} {path : List Text} :
    node.nodeAt? (axis :: case :: path) = some found ↔
      ∃ cases, OrderedMap.get? node.axes axis = some cases ∧
        ∃ next, OrderedMap.get? cases.members case = some next ∧ next.nodeAt? path = some found := by
  simp only [nodeAt?, bind, Option.bind_eq_some_iff]

/-- The names of all axes and cases below a node have no point. -/
inductive HasPlainNames : Json → Prop
  | node {node : Json} (haxes : ∀ axis ∈ node.axes, .char '.' ∉ axis.1)
      (hcases : ∀ axis ∈ node.axes, ∀ case ∈ axis.2.members, .char '.' ∉ case.1)
      (hnested : ∀ axis ∈ node.axes, ∀ case ∈ axis.2.members, HasPlainNames case.2) :
      HasPlainNames node

theorem HasPlainNames.of_nodeAt? {node found : Json} {path : List Text} (h : node.HasPlainNames)
    (hfound : node.nodeAt? path = some found) : ∀ name ∈ path, CodePoint.char '.' ∉ name := by
  induction h generalizing path with
  | node haxes hcases _ ih =>
    match path with
    | [] => exact fun _ hname => absurd hname List.not_mem_nil
    | [_] => contradiction
    | axis :: case :: path =>
      obtain ⟨cases, haxis, next, hcase, hrest⟩ := nodeAt?_eq_some_iff.mp hfound
      have haxis := OrderedMap.mem_of_get?_eq_some haxis
      have hcase := OrderedMap.mem_of_get?_eq_some hcase
      exact List.forall_mem_cons.mpr ⟨haxes _ haxis,
        List.forall_mem_cons.mpr ⟨hcases _ haxis _ hcase, ih _ haxis _ hcase hrest⟩⟩

/-- The string unit of the node has the text as its value. -/
def HasText (node : Json) (value : Text) : Prop :=
  ∃ unit, member "stringUnit" node.members = object unit ∧ member "value" unit = text value

/-- The names lead to a node with the text. -/
def TextAt (node : Json) (path : List Text) (value : Text) : Prop :=
  ∃ found, node.nodeAt? path = some found ∧ found.HasText value

/-- The order of the document among the paths from a node. -/
inductive Before : Json → List Text → List Text → Prop
  | own {node : Json} {name : Text} {path : List Text} : Before node [] (name :: path)
  | axes {node : Json} {a b : Text} {p q : List Text} (h : [a, b].Sublist (node.axes.map (·.1))) :
      Before node (a :: p) (b :: q)
  | cases {node cases : Json} {axis a b : Text} {p q : List Text}
      (haxis : OrderedMap.get? node.axes axis = some cases)
      (h : [a, b].Sublist (cases.members.map (·.1))) : Before node (axis :: a :: p) (axis :: b :: q)
  | nested {node next : Json} {axis case : Text} {p q : List Text}
      (hnext : node.nodeAt? [axis, case] = some next) (h : Before next p q) :
      Before node (axis :: case :: p) (axis :: case :: q)

/-! ### Members with different names -/

section Keyed

variable {node j : Json} {name : Text} {ms : Members}

theorem IsKeyed.nodup_members (h : node.IsKeyed) : (node.members.map (·.1)).Nodup := by
  cases h with
  | object hnames => exact hnames
  | _ => exact List.nodup_nil

theorem IsKeyed.of_mem_members (h : node.IsKeyed) : ∀ m ∈ node.members, m.2.IsKeyed := by
  cases h with
  | object _ hmembers => exact hmembers
  | _ => exact fun _ hm => absurd hm List.not_mem_nil

theorem isKeyed_of_get? (h : ∀ m ∈ ms, m.2.IsKeyed) (hget : OrderedMap.get? ms name = some j) :
    j.IsKeyed :=
  h _ (OrderedMap.mem_of_get?_eq_some hget)

theorem isKeyed_member (h : ∀ m ∈ ms, m.2.IsKeyed) (name : Text) : (member name ms).IsKeyed := by
  by_cases hnull : member name ms = .null
  · rw [hnull]
    exact .null
  · exact h _ (Catalog.mem_of_member rfl hnull)

theorem IsKeyed.axes (h : node.IsKeyed) : (member "variations" node.members).IsKeyed :=
  isKeyed_member h.of_mem_members _

/-- No path comes before itself. -/
theorem Before.ne {p q : List Text} (h : node.Before p q) (hkeyed : node.IsKeyed) : p ≠ q := by
  induction h with
  | own => exact (List.cons_ne_nil _ _).symm
  | axes h =>
    intro heq
    obtain ⟨rfl, -⟩ := List.cons.inj heq
    have := hkeyed.axes.nodup_members.sublist h
    simp at this
  | cases haxis h =>
    intro heq
    obtain ⟨rfl, -⟩ := List.cons.inj (List.cons.inj heq).2
    have hcases := isKeyed_of_get? hkeyed.axes.of_mem_members haxis
    have := hcases.nodup_members.sublist h
    simp at this
  | nested hnext _ ih =>
    intro heq
    obtain ⟨cases, haxis, next, hcase, hsame⟩ := nodeAt?_eq_some_iff.mp hnext
    cases hsame
    have hcases := isKeyed_of_get? hkeyed.axes.of_mem_members haxis
    exact ih (isKeyed_of_get? hcases.of_mem_members hcase)
      (List.cons.inj (List.cons.inj heq).2).2

end Keyed

end Json

/-! ### Listings -/

/-- Texts are listed with their paths, each that is there once for its path, and in an order. -/
structure IsListing (has : List Text → Text → Prop) (before : List Text → List Text → Prop)
    (found : List (List Text × Text)) : Prop where
  mem : ∀ path text, (path, text) ∈ found ↔ has path text
  order : found.Pairwise fun a b => before a.1 b.1

/-- What is there below named values: the path begins with the name. -/
def HasUnder (has : Json → List Text → Text → Prop) (members : Members) : List Text → Text → Prop
  | [], _ => False
  | name :: path, text => ∃ j, OrderedMap.get? members name = some j ∧ has j path text

/-- The order below named values: that of the names and, below one of them, that of its value. -/
inductive BeforeUnder (before : Json → List Text → List Text → Prop) (members : Members) :
    List Text → List Text → Prop
  | names {a b : Text} {p q : List Text} (h : [a, b].Sublist (members.map (·.1))) :
      BeforeUnder before members (a :: p) (b :: q)
  | value {name : Text} {j : Json} {p q : List Text}
      (hget : OrderedMap.get? members name = some j) (h : before j p q) :
      BeforeUnder before members (name :: p) (name :: q)

section Listing

variable {has : Json → List Text → Text → Prop} {before : Json → List Text → List Text → Prop}
  {name : Text} {j : Json} {rest : Members} {here later : List (List Text × Text)}

theorem isListing_nil : IsListing (HasUnder has []) (BeforeUnder before []) [] := by
  refine ⟨fun path text => iff_of_false List.not_mem_nil ?_, List.Pairwise.nil⟩
  cases path with
  | nil => exact id
  | cons name path => exact fun ⟨_, hget, _⟩ => nomatch hget

/-- What is found later begins with one of the other names. -/
theorem IsListing.exists_name {found : List (List Text × Text)} {members : Members}
    (h : IsListing (HasUnder has members) (BeforeUnder before members) found)
    {f : List Text × Text} (hf : f ∈ found) :
    ∃ name ∈ members.map (·.1), ∃ path, f.1 = name :: path := by
  obtain ⟨path, text⟩ := f
  have hunder := (h.mem path text).mp hf
  cases path with
  | nil => contradiction
  | cons name path =>
    obtain ⟨j, hget, -⟩ := hunder
    exact ⟨name, List.mem_map_of_mem (OrderedMap.mem_of_get?_eq_some hget), path, rfl⟩

theorem BeforeUnder.cons_members (hname : name ∉ rest.map (·.1)) {p q : List Text}
    (h : BeforeUnder before rest p q) : BeforeUnder before ((name, j) :: rest) p q := by
  cases h with
  | names h => exact .names (h.cons name)
  | value hget h =>
    refine .value ?_ h
    have hmem := List.mem_map_of_mem (f := fun m => m.1) (OrderedMap.mem_of_get?_eq_some hget)
    rw [OrderedMap.get?, if_neg fun heq : name = _ => hname (heq ▸ hmem), hget]

/-- The listing of a named value, behind its name, and that of the values after it. -/
theorem IsListing.cons (hname : name ∉ rest.map (·.1)) (hhere : IsListing (has j) (before j) here)
    (hlater : IsListing (HasUnder has rest) (BeforeUnder before rest) later) :
    IsListing (HasUnder has ((name, j) :: rest)) (BeforeUnder before ((name, j) :: rest))
      (here.map (fun f => (name :: f.1, f.2)) ++ later) := by
  have hself : OrderedMap.get? ((name, j) :: rest) name = some j := if_pos rfl
  have hother : ∀ n, name ≠ n →
      OrderedMap.get? ((name, j) :: rest) n = OrderedMap.get? rest n := fun n hne => if_neg hne
  constructor
  · intro path text
    rw [List.mem_append, hlater.mem]
    cases path with
    | nil => simp [HasUnder]
    | cons n path =>
      by_cases hn : name = n
      · subst hn
        have hnone : OrderedMap.get? rest name = none := OrderedMap.get?_eq_none_iff.mpr hname
        simp [HasUnder, hself, hnone, hhere.mem]
      · simp [HasUnder, hother n hn, hn]
  · rw [List.pairwise_append]
    refine ⟨?_, ?_, ?_⟩
    · rw [List.pairwise_map]
      exact hhere.order.imp fun h => .value hself h
    · exact hlater.order.imp (.cons_members hname)
    · intro a ha b hb
      obtain ⟨f, -, rfl⟩ := List.mem_map.mp ha
      obtain ⟨n, hn, path, hpath⟩ := hlater.exists_name hb
      rw [hpath]
      exact .names (List.Sublist.cons_cons name (List.singleton_sublist.mpr hn))

end Listing

namespace Json

variable {node : Json}

/-- Below a node, names lead through its axes. -/
theorem textAt_iff {path : List Text} (h : path ≠ []) (value : Text) : node.TextAt path value ↔
    HasUnder (fun cases => HasUnder TextAt cases.members) node.axes path value := by
  match path with
  | [] => contradiction
  | [axis] => simp [TextAt, nodeAt?, HasUnder]
  | axis :: case :: path =>
    simp only [TextAt, nodeAt?_eq_some_iff, HasUnder]
    constructor
    · rintro ⟨found, ⟨cases, haxis, next, hcase, hfound⟩, hvalue⟩
      exact ⟨cases, haxis, next, hcase, found, hfound, hvalue⟩
    · rintro ⟨cases, haxis, next, hcase, found, hfound, hvalue⟩
      exact ⟨found, ⟨cases, haxis, next, hcase, hfound⟩, hvalue⟩

theorem before_of_under {p q : List Text}
    (h : BeforeUnder (fun cases => BeforeUnder Before cases.members) node.axes p q) :
    node.Before p q := by
  cases h with
  | names h => exact .axes h
  | value haxis h =>
    cases h with
    | names h => exact .cases haxis h
    | value hcase h => exact .nested (nodeAt?_eq_some_iff.mpr ⟨_, haxis, _, hcase, rfl⟩) h

end Json

namespace Catalog

open Json

/-- The variations are those of a listing, under the labels of their paths. -/
def Flattens (labelOf : List Text → Text) (has : List Text → Text → Prop)
    (before : List Text → List Text → Prop) (vs : Variations) : Prop :=
  ∃ found, vs = found.map (fun f => (labelOf f.1, f.2)) ∧ IsListing has before found

/-- The label that begins with the given one and goes on with the names of a path. -/
def labelBelow (label : Text) (path : List Text) : Text :=
  label ++ path.flatMap (Text.ofString "." ++ ·)

/-- The label that is given with its last point, and goes on with the names of a path. -/
def labelIn (label : Text) (path : List Text) : Text := label ++ Text.join "." path

section Flattens

variable {has : Json → List Text → Text → Prop} {before : Json → List Text → List Text → Prop}
  {label name : Text} {j : Json} {rest ms : Members} {here later vs : Variations}

theorem flattens_nil : Flattens (labelIn label) (HasUnder has []) (BeforeUnder before []) [] :=
  ⟨[], rfl, isListing_nil⟩

theorem Flattens.cons (hname : name ∉ rest.map (·.1))
    (hhere : Flattens (labelBelow (label ++ name)) (has j) (before j) here)
    (hlater : Flattens (labelIn label) (HasUnder has rest) (BeforeUnder before rest) later) :
    Flattens (labelIn label) (HasUnder has ((name, j) :: rest))
      (BeforeUnder before ((name, j) :: rest)) (here ++ later) := by
  obtain ⟨found, rfl, hfound⟩ := hhere
  obtain ⟨others, rfl, hothers⟩ := hlater
  refine ⟨_, ?_, hfound.cons hname hothers⟩
  rw [List.map_append, List.map_map]
  congr 1
  refine List.map_congr_left fun f _ => ?_
  simp [labelBelow, labelIn, Text.join_cons]

/-- Below named values, the first name follows a point. -/
theorem Flattens.below
    (h : Flattens (labelIn (label ++ ".")) (HasUnder has ms) (BeforeUnder before ms) vs) :
    Flattens (labelBelow label) (HasUnder has ms) (BeforeUnder before ms) vs := by
  obtain ⟨found, rfl, hfound⟩ := h
  refine ⟨found, List.map_congr_left fun f hf => ?_, hfound⟩
  obtain ⟨name, -, path, hpath⟩ := hfound.exists_name hf
  simp [labelBelow, labelIn, hpath, Text.join_cons]

end Flattens

theorem stringUnit_eq_some_iff {source : Option Path} {place : Text} {node : Members}
    {value : Option Text}
    (h : stringUnit source place node = .ok value) (t : Text) :
    value = some t ↔ (Json.object node).HasText t := by
  obtain ⟨unit, hunit, h⟩ := Sequence.bind_eq_ok_iff.mp h
  rw [asObject_eq_ok_iff] at hunit
  cases unit with
  | nil =>
    cases h
    refine iff_of_false (Option.some_ne_none t).symm ?_
    rintro ⟨unit, hobject, hvalue⟩
    rcases hunit with ⟨hnull, -⟩ | hempty
    · exact Json.noConfusion (hnull.symm.trans hobject)
    · cases hempty.symm.trans hobject
      exact Json.noConfusion hvalue
  | cons first rest =>
    have hobject := hunit.resolve_left fun hnull => List.cons_ne_nil _ _ hnull.2
    dsimp only at h
    split at h
    · rename_i found hfound
      cases h
      constructor
      · intro heq
        cases heq
        exact ⟨_, hobject, hfound⟩
      · rintro ⟨unit, hunit, hvalue⟩
        cases hobject.symm.trans hunit
        cases hfound.symm.trans hvalue
        rfl
    · contradiction

/-- The text of a node is listed before the texts of its axes. -/
theorem isListing_node {node : Json} {value : Option Text} {found : List (List Text × Text)}
    (hvalue : ∀ t, value = some t ↔ node.HasText t)
    (h : IsListing (HasUnder (fun cases => HasUnder TextAt cases.members) node.axes)
      (BeforeUnder (fun cases => BeforeUnder Before cases.members) node.axes) found) :
    IsListing node.TextAt node.Before ((value.map (([] : List Text), ·)).toList ++ found) := by
  constructor
  · intro path text
    rw [List.mem_append, h.mem]
    cases path with
    | nil => simp [HasUnder, TextAt, nodeAt?, ← hvalue]
    | cons name path => simp [textAt_iff (List.cons_ne_nil name path)]
  · rw [List.pairwise_append]
    refine ⟨?_, h.order.imp before_of_under, ?_⟩
    · cases value with
      | none => exact List.Pairwise.nil
      | some t => exact List.pairwise_singleton _ _
    · intro a ha b hb
      obtain ⟨t, -, rfl⟩ := Option.map_eq_some_iff.mp (Option.mem_toList.mp ha)
      obtain ⟨name, -, path, hpath⟩ := h.exists_name hb
      rw [hpath]
      exact .own

mutual

theorem flattens_flattenAxes (source : Option Path) (place label : Text) :
    ∀ (axes : List (Text × Json)) (vs : Variations),
    (axes.map (·.1)).Nodup → (∀ axis ∈ axes, axis.2.IsKeyed) →
    flattenAxes source place label axes = .ok vs →
    Flattens (labelIn label) (HasUnder (fun cases => HasUnder TextAt cases.members) axes)
      (BeforeUnder (fun cases => BeforeUnder Before cases.members) axes) vs
  | [], _, _, _, h => by
    cases h
    exact flattens_nil
  | (axis, cases) :: rest, vs, hnames, hkeyed, h => by
    obtain ⟨hname, hrest⟩ := List.nodup_cons.mp hnames
    obtain ⟨hcases, hlater⟩ := List.forall_mem_cons.mp hkeyed
    obtain ⟨here, hhere, h⟩ := Sequence.bind_eq_ok_iff.mp h
    obtain ⟨later, hfound, h⟩ := Sequence.bind_eq_ok_iff.mp h
    cases h
    exact .cons hname (flattens_flattenAxis source place label axis cases here hcases hhere)
      (flattens_flattenAxes source place label rest later hrest hlater hfound)
termination_by structural axes => axes

theorem flattens_flattenAxis (source : Option Path) (place label axis : Text) :
    ∀ (cases : Json) (vs : Variations),
    cases.IsKeyed → flattenAxis source place label axis cases = .ok vs →
    Flattens (labelBelow (label ++ axis)) (HasUnder TextAt cases.members)
      (BeforeUnder Before cases.members) vs
  | .null, _, _, h => by
    cases h
    exact flattens_nil.below
  | .object cases, vs, hkeyed, h =>
    (flattens_flattenCases source place _ cases vs hkeyed.nodup_members
      hkeyed.of_mem_members h).below
  | .bool _, _, _, h | .int _, _, _, h | .float _, _, _, h | .text _, _, _, h | .list _, _, _, h =>
    nomatch h
termination_by structural cases => cases

theorem flattens_flattenCases (source : Option Path) (place label : Text) :
    ∀ (cases : List (Text × Json)) (vs : Variations),
    (cases.map (·.1)).Nodup → (∀ case ∈ cases, case.2.IsKeyed) →
    flattenCases source place label cases = .ok vs →
    Flattens (labelIn label) (HasUnder TextAt cases) (BeforeUnder Before cases) vs
  | [], _, _, _, h => by
    cases h
    exact flattens_nil
  | (case, node) :: rest, vs, hnames, hkeyed, h => by
    obtain ⟨hname, hrest⟩ := List.nodup_cons.mp hnames
    obtain ⟨hnode, hlater⟩ := List.forall_mem_cons.mp hkeyed
    obtain ⟨here, hhere, h⟩ := Sequence.bind_eq_ok_iff.mp h
    obtain ⟨later, hfound, h⟩ := Sequence.bind_eq_ok_iff.mp h
    cases h
    exact .cons hname (flattens_flattenCase source place (label ++ case) node here hnode hhere)
      (flattens_flattenCases source place label rest later hrest hlater hfound)
termination_by structural cases => cases

theorem flattens_flattenCase (source : Option Path) (place label : Text) :
    ∀ (node : Json) (vs : Variations),
    node.IsKeyed → flattenCase source place label node = .ok vs →
    Flattens (labelBelow label) node.TextAt node.Before vs
  | .null, _, _, h => by
    cases h
    have hnone : ∀ t, (none : Option Text) = some t ↔ Json.null.HasText t :=
      fun t => iff_of_false nofun nofun
    exact ⟨_, rfl, isListing_node hnone isListing_nil⟩
  | .object node, vs, hkeyed, h => by
    obtain ⟨value, hvalue, h⟩ := Sequence.bind_eq_ok_iff.mp h
    obtain ⟨nested, hnested, h⟩ := Sequence.bind_eq_ok_iff.mp h
    cases h
    obtain ⟨found, rfl, hfound⟩ :=
      flattens_flattenNested source place label node nested hkeyed.axes hnested
    refine ⟨_, ?_, isListing_node (stringUnit_eq_some_iff hvalue) hfound⟩
    cases value <;> simp [labelBelow]
  | .bool _, _, _, h | .int _, _, _, h | .float _, _, _, h | .text _, _, _, h | .list _, _, _, h =>
    nomatch h
termination_by structural node => node

theorem flattens_flattenNested (source : Option Path) (place label : Text) :
    ∀ (node : List (Text × Json)) (vs : Variations),
    (member "variations" node).IsKeyed → flattenNested source place label node = .ok vs →
    Flattens (labelBelow label)
      (HasUnder (fun cases => HasUnder TextAt cases.members) (Json.object node).axes)
      (BeforeUnder (fun cases => BeforeUnder Before cases.members) (Json.object node).axes) vs
  | [], _, _, h => by
    cases h
    exact flattens_nil.below
  | (name, axes) :: rest, vs, hkeyed, h => by
    by_cases hname : name = Text.ofString "variations"
    · have hmember : member "variations" ((name, axes) :: rest) = axes :=
        hname ▸ member_cons_self
      rw [hmember] at hkeyed
      rw [flattenNested, if_pos hname] at h
      have hbelow := flattens_flattenBelow source place label axes vs hkeyed h
      rwa [← hmember] at hbelow
    · have hmember : member "variations" ((name, axes) :: rest) = member "variations" rest :=
        member_cons_of_ne hname
      rw [hmember] at hkeyed
      rw [flattenNested, if_neg hname] at h
      have hbelow := flattens_flattenNested source place label rest vs hkeyed h
      rw [Json.axes, Json.members, ← hmember] at hbelow
      exact hbelow
termination_by structural node => node

theorem flattens_flattenBelow (source : Option Path) (place label : Text) :
    ∀ (axes : Json) (vs : Variations),
    axes.IsKeyed → flattenBelow source place label axes = .ok vs →
    Flattens (labelBelow label)
      (HasUnder (fun cases => HasUnder TextAt cases.members) axes.members)
      (BeforeUnder (fun cases => BeforeUnder Before cases.members) axes.members) vs
  | .null, _, _, h => by
    cases h
    exact flattens_nil.below
  | .object axes, vs, hkeyed, h =>
    (flattens_flattenAxes source place _ axes vs hkeyed.nodup_members hkeyed.of_mem_members h).below
  | .bool _, _, _, h | .int _, _, _, h | .float _, _, _, h | .text _, _, _, h | .list _, _, _, h =>
    nomatch h
termination_by structural axes => axes

end

/-- The texts of variations, in which the names of axes and cases have no point: no label is there
twice, a text is there under a label if the names of the label lead to a node with the text, and the
order is that of the document. -/
theorem variationsOf_exact {source : Option Path} {place : Text} {owner : Members} {vs : Variations}
    (hkeyed : (Json.object owner).IsKeyed)
    (hnames : (Json.object owner).HasPlainNames) (h : variationsOf source place owner = .ok vs) :
    (vs.map (·.1)).Nodup ∧
    (∀ label text, (label, text) ∈ vs ↔ ∃ node,
      (Json.object owner).nodeAt? (Text.splitAt '.' label) = some node ∧ node.HasText text) ∧
    vs.Pairwise fun a b =>
      (Json.object owner).Before (Text.splitAt '.' a.1) (Text.splitAt '.' b.1) := by
  obtain ⟨axes, haxes, h⟩ := Sequence.bind_eq_ok_iff.mp h
  have hmembers : axes = (Json.object owner).axes := by
    rcases asObject_eq_ok_iff.mp haxes with ⟨hnull, rfl⟩ | hobject
    · rw [Json.axes, Json.members, hnull]
      rfl
    · rw [Json.axes, Json.members, hobject]
      rfl
  subst hmembers
  obtain ⟨found, rfl, hfound⟩ := flattens_flattenAxes source place [] _ vs hkeyed.axes.nodup_members
    hkeyed.axes.of_mem_members h
  -- a label is split back into the names that it is made of
  have hsplit : ∀ f ∈ found, Text.splitAt '.' (labelIn [] f.1) = f.1 := by
    intro f hf
    obtain ⟨name, -, path, hpath⟩ := hfound.exists_name hf
    have hne : f.1 ≠ [] := hpath ▸ List.cons_ne_nil name path
    obtain ⟨node, hnode, -⟩ := (textAt_iff hne f.2).mpr ((hfound.mem f.1 f.2).mp hf)
    have hclear : ∀ part ∈ f.1, ∀ c ∈ part, (c == CodePoint.char '.') = false := by
      intro part hpart c hc
      have hpoint : c ≠ CodePoint.char '.' := fun heq =>
        hnames.of_nodeAt? hnode part hpart (heq ▸ hc)
      simpa using hpoint
    show Text.splitWhere _ (Text.join [CodePoint.char '.'] f.1) = f.1
    rw [Text.splitWhere_join (by simp) hne, Text.flatMap_splitWhere hclear]
  have horder : (found.map fun f => (labelIn [] f.1, f.2)).Pairwise fun a b =>
      (Json.object owner).Before (Text.splitAt '.' a.1) (Text.splitAt '.' b.1) := by
    rw [List.pairwise_map]
    refine hfound.order.imp_of_mem fun {a b} ha hb hbefore => ?_
    rw [hsplit a ha, hsplit b hb]
    exact before_of_under hbefore
  refine ⟨?_, fun label text => ?_, horder⟩
  · refine List.pairwise_map.mpr (horder.imp fun {a b} hbefore heq => ?_)
    exact hbefore.ne hkeyed (congrArg _ heq)
  · have hparts : Text.splitAt '.' label ≠ [] := Text.splitWhere_ne_nil _ label
    rw [← TextAt, textAt_iff hparts]
    refine Iff.trans ?_ (hfound.mem _ text)
    constructor
    · intro hmem
      obtain ⟨f, hf, heq⟩ := List.mem_map.mp hmem
      cases heq
      rwa [hsplit f hf]
    · intro hmem
      refine List.mem_map.mpr ⟨_, hmem, ?_⟩
      exact congrArg (·, text) (Text.join_splitAt '.' label)

/-- A node with a text and nothing else. -/
def plainNode (value : Text) : Json :=
  .object [("stringUnit", .object [("state", .text "translated"), ("value", .text value)])]

/-- The prompt on a phone, which varies with a number when there is one. -/
def phoneNode : Json :=
  .object [("stringUnit", .object [("value", .text "Tap")]),
    ("variations", .object [("plural", .object
      [("one", plainNode "Tap once"), ("other", plainNode "Tap %d times")])])]

/-- A prompt that is different on a phone, and still missing on a watch. -/
def prompt : Members :=
  [("variations", .object [("device", .object
    [("iphone", phoneNode), ("watch", .null), ("other", plainNode "Click")])])]

theorem variationsOf_exact_prompt :
    (Json.object prompt).IsKeyed ∧ (Json.object prompt).HasPlainNames ∧
    variationsOf none "k" prompt = .ok [("device.iphone", "Tap"),
      ("device.iphone.plural.one", "Tap once"), ("device.iphone.plural.other", "Tap %d times"),
      ("device.other", "Click")] ∧
    (∃ node, (Json.object prompt).nodeAt? (Text.splitAt '.' "device.iphone.plural.other") =
      some node ∧ node.HasText "Tap %d times") ∧
    (Json.object prompt).Before (Text.splitAt '.' "device.iphone")
      (Text.splitAt '.' "device.iphone.plural.one") := by
  have hkeyed : (Json.object prompt).IsKeyed := by
    simp +decide [prompt, phoneNode, plainNode, isKeyed_object_iff, IsKeyed.text, IsKeyed.null]
  have hleaf : ∀ node : Json, node.axes = [] → node.HasPlainNames := fun node h =>
    .node (by simp [h]) (by simp [h]) (by simp [h])
  have hphone : phoneNode.HasPlainNames := by
    refine .node (by decide) (by decide) (List.forall_mem_singleton.mpr ?_)
    exact List.forall_mem_cons.mpr ⟨hleaf _ rfl, List.forall_mem_singleton.mpr (hleaf _ rfl)⟩
  have hnames : (Json.object prompt).HasPlainNames := by
    refine .node (by decide) (by decide) (List.forall_mem_singleton.mpr ?_)
    exact List.forall_mem_cons.mpr ⟨hphone, List.forall_mem_cons.mpr
      ⟨hleaf .null rfl, List.forall_mem_singleton.mpr (hleaf _ rfl)⟩⟩
  have hread : variationsOf none "k" prompt = .ok [("device.iphone", "Tap"),
      ("device.iphone.plural.one", "Tap once"), ("device.iphone.plural.other", "Tap %d times"),
      ("device.other", "Click")] := by rfl
  obtain ⟨-, hmem, horder⟩ := variationsOf_exact hkeyed hnames hread
  have hother := (hmem "device.iphone.plural.other" "Tap %d times").mp (by decide)
  have hfirst := (List.pairwise_cons.mp horder).1 ("device.iphone.plural.one", "Tap once")
    (by decide)
  exact ⟨hkeyed, hnames, hread, hother, hfirst⟩

end Catalog

end StringCatalog
