import Mathlib.Data.Rat.Floor
import Boardgame.Core.Players
import Boardgame.Core.GameMap

/-!
# Core.Pieces

Inventories and pieces (`resources/inventory.ts`, `pieces/`). Counts and stats are JavaScript
numbers, read as exact rationals.
-/

namespace Boardgame

abbrev ResourceType := String

abbrev PieceId := String

/-- An id made from a counter tells the count. -/
theorem counter_inj {m n : Nat} (h : toString m = toString n) : m = n := by
  have hrepr : Nat.repr m = Nat.repr n := h
  have hdigits := congrArg String.toList hrepr
  rw [Nat.toList_repr, Nat.toList_repr] at hdigits
  have := congrArg (fun l => Nat.ofDigitChars 10 l 0) hdigits
  simpa only [Nat.ofDigitChars_toDigits (by decide : 1 < 10) (by decide : 10 ≤ 10)] using this

/-- The digits after the point of `rest / den`, at most as many as a number is printed with. -/
def decimals (den : Nat) : Nat → Nat → List Char
  | 0, _ => []
  | _, 0 => []
  | digits + 1, rest => Nat.digitChar (rest * 10 / den) :: decimals den digits (rest * 10 % den)

/-- A number in a template string, for the finite decimals that are printed without an exponent. -/
def numberText (q : ℚ) : String :=
  let fraction := decimals q.den 17 (q.num.natAbs % q.den)
  (if q < 0 then "-" else "") ++ toString (q.num.natAbs / q.den) ++
    if fraction = [] then "" else "." ++ String.ofList fraction

example : [(3 : ℚ), 1 / 2, -5 / 4].map numberText = ["3", "0.5", "-1.25"] := by decide +kernel

/-- A bag of resources; an absent resource counts 0. -/
structure Inventory where
  counts : OrderedMap ResourceType ℚ
  deriving DecidableEq

namespace Inventory

def empty : Inventory := ⟨∅⟩

def get (inv : Inventory) (type : ResourceType) : ℚ := (inv.counts.get? type).getD 0

def has (inv : Inventory) (type : ResourceType) (qty : ℚ) : Bool := qty ≤ inv.get type

/-- Overwrite one count. -/
def put (inv : Inventory) (type : ResourceType) (qty : ℚ) : Inventory := ⟨inv.counts.set type qty⟩

def add (inv : Inventory) (type : ResourceType) (qty : ℚ) : Except JsError Inventory :=
  if qty < 0 then .error ⟨"add() takes a non-negative quantity; use remove() instead"⟩
  else .ok (inv.put type (inv.get type + qty))

def remove (inv : Inventory) (type : ResourceType) (qty : ℚ) : Except JsError Inventory :=
  if qty < 0 then .error ⟨"remove() takes a non-negative quantity"⟩
  else if inv.get type < qty then
    .error ⟨"Insufficient " ++ type ++ ": have " ++ numberText (inv.get type) ++ ", need " ++
      numberText qty⟩
  else .ok (inv.put type (inv.get type - qty))

@[simp] theorem get_empty (r : ResourceType) : empty.get r = 0 := rfl

@[simp] theorem get_put (inv : Inventory) (r r' : ResourceType) (q : ℚ) :
    (inv.put r q).get r' = if r' = r then q else inv.get r' := by
  simp only [get, put, OrderedMap.get?_set]
  split <;> simp

/-- Every count is a natural number. -/
def Whole (inv : Inventory) : Prop := ∀ r, ∃ n : ℕ, inv.get r = n

theorem Whole.nonneg {inv : Inventory} (h : inv.Whole) (r : ResourceType) : 0 ≤ inv.get r := by
  obtain ⟨n, hn⟩ := h r
  rw [hn]
  exact Nat.cast_nonneg n

theorem add_ok {inv : Inventory} {r : ResourceType} {q : ℚ} (h : 0 ≤ q) :
    inv.add r q = .ok (inv.put r (inv.get r + q)) := by
  rw [add, if_neg (not_lt.mpr h)]

theorem remove_ok {inv : Inventory} {r : ResourceType} {q : ℚ} (h : 0 ≤ q) (h' : q ≤ inv.get r) :
    inv.remove r q = .ok (inv.put r (inv.get r - q)) := by
  rw [remove, if_neg (not_lt.mpr h), if_neg (not_lt.mpr h')]

end Inventory

inductive PieceLocation where
  | tile (tileId : TileId)
  | edge (edgeId : String)
  | vertex (vertexId : String)
  deriving DecidableEq

abbrev Stats := OrderedMap String ℚ

structure Piece where
  id : PieceId
  kind : String
  owner : PlayerId
  location : PieceLocation
  stats : Option Stats := none
  state : Option Stats := none
  deriving DecidableEq

structure PieceKindDefinition where
  kind : String
  category : String
  displayName : String
  cost : Option (OrderedMap ResourceType ℚ) := none
  limitPerPlayer : Option Nat := none
  defaultStats : Option Stats := none

abbrev PieceRegistry := OrderedMap String PieceKindDefinition

namespace PieceRegistry

def require (reg : PieceRegistry) (kind : String) : Except JsError PieceKindDefinition :=
  match reg.get? kind with
  | some d => .ok d
  | none => .error ⟨"Unknown piece kind: " ++ kind⟩

def getDefaultStats (reg : PieceRegistry) (kind : String) : Stats :=
  ((reg.get? kind).bind PieceKindDefinition.defaultStats).getD ∅

end PieceRegistry

def makeUnit (id : PieceId) (kind : String) (owner : PlayerId) (tileId : TileId)
    (stats : Option Stats := none) (state : Option Stats := none) : Piece :=
  { id, kind, owner, location := .tile tileId, stats, state }

/-- `makeUnitFromRegistry` without `statsOverride`, which no scenario passes. -/
def makeUnitFromRegistry (reg : PieceRegistry) (id : PieceId) (kind : String) (owner : PlayerId)
    (tileId : TileId) (state : Option Stats := none) : Piece :=
  let stats := reg.getDefaultStats kind
  makeUnit id kind owner tileId (if stats.entries.length > 0 then some stats else none) state

end Boardgame
