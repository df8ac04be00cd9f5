import StringCatalog.Format.Template

/-! The arguments of a resource: the slots that the placeholders of its texts address, and the one
list of typed arguments that serves all of them. -/

namespace StringCatalog

/-- A parameter of a generated member. -/
structure Argument where
  name : Text
  kind : ArgumentKind
  position : Int
  deriving DecidableEq

namespace Argument

/-- The name of the argument at a position. -/
def nameAt (position : Int) : Text := "arg" ++ Text.ofInt position

end Argument

/-- A placeholder with the number of the argument that it takes. -/
abbrev Slotted := Placeholder × Int

namespace Template

/-- The kind of the first placeholder that has claimed a slot by number, or by place. -/
def claimant? (done : List Slotted) (byNumber : Bool) (slot : Int) : Option ArgumentKind :=
  (done.find? fun d => d.1.position.isSome == byNumber && d.2 == slot).map (·.1.kind)

/-- The slot of a placeholder behind others: its number if it has one, else the place that it has
among those without. -/
def slotAfter (done : List Slotted) (p : Placeholder) : Int :=
  p.position.getD ((done.filter (·.1.position.isNone)).length + 1)

/-- Gives each placeholder its slot, behind those in `done`. A slot that is claimed both by place
and by number is a collision; `whole` is the text that it is reported with. -/
def assignSlots (key whole : Text) (done : List Slotted) :
    List Placeholder → Except GenerationError (List Slotted)
  | [] => .ok done
  | p :: rest =>
    let slot := slotAfter done p
    match claimant? done p.position.isNone slot with
    | some other => .error (.collisionOf key slot [other, p.kind] whole)
    | none => assignSlots key whole (done ++ [(p, slot)]) rest

/-- The placeholders of a template with their slots. -/
def slots (t : Template) (key : Text) : Except GenerationError (List Slotted) :=
  assignSlots key t.text [] t.placeholders

end Template

namespace Argument

/-- A slot with the kind of a placeholder that takes its argument. -/
abbrev Use := Int × ArgumentKind

/-- The kinds with which a slot is used, each once, in the order of names. -/
def kindsAt (uses : List Use) (slot : Int) : List ArgumentKind :=
  ArgumentKind.distinct ((uses.filter (·.1 == slot)).map (·.2))

/-- The slots in use, each once, in ascending order. -/
def slotsOf (uses : List Use) : List Int :=
  (uses.map (·.1)).eraseDups.mergeSort fun a b => decide (a ≤ b)

/-- The arguments that serve all uses. Every slot has one kind, and the slots are `1` to some `n`:
the least slot with several kinds is reported first, then a gap. -/
def ofUses (uses : List Use) (key : Text) : Except GenerationError (List Argument) :=
  let slots := slotsOf uses
  match slots.find? fun s => 1 < (kindsAt uses s).length with
  | some s => .error (.typeConflict key s (kindsAt uses s))
  | none =>
    if slots = GenerationError.oneTo slots.length then
      .ok (slots.flatMap fun s => (kindsAt uses s).map fun k => ⟨nameAt s, k, s⟩)
    else .error (.gapOf key slots)

/-- The arguments of a resource with the given texts. -/
def reconcile (variants : List Template) (key : Text) : Except GenerationError (List Argument) := do
  let slotted ← variants.mapM (Template.slots · key)
  ofUses (slotted.flatten.map fun s => (s.2, s.1.kind)) key

end Argument

end StringCatalog
