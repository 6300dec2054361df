/-
A mesh of router tiles linked port to port, and the wires of one cycle: everything
between two clock edges is one combinational network, which settles.
-/
import Mathlib.Algebra.Order.Ring.Int
import OpenRV64.MeshRouter
import OpenRV64.Settle
import OpenRV64.SyncRun

namespace OpenRV64

open MeshPort

/-- The tiles of a mesh of `W` columns and `H` rows, from its south-west corner. -/
@[ext]
structure MeshTile (W H : ℕ) where
  x : Fin W
  y : Fin H
deriving DecidableEq

namespace MeshPort

def opposite : MeshPort → MeshPort
  | n => s
  | e => w
  | w => e
  | s => n
  | up => up

/-- The tile behind a port lies one step away. -/
def dx : MeshPort → ℤ
  | e => 1
  | w => -1
  | n | s | up => 0

def dy : MeshPort → ℤ
  | n => 1
  | s => -1
  | e | w | up => 0

theorem opposite_opposite (port : MeshPort) : port.opposite.opposite = port := by
  cases port <;> rfl

end MeshPort

namespace MeshTile

variable {W H : ℕ}

theorem pred_lt {n : ℕ} (k : Fin n) : k.val - 1 < n := lt_of_le_of_lt (Nat.sub_le k.val 1) k.isLt

/-- The tile that a port is linked to. -/
def neighbor (t : MeshTile W H) : MeshPort → Option (MeshTile W H)
  | .e => if h : t.x.val + 1 < W then some ⟨⟨t.x.val + 1, h⟩, t.y⟩ else none
  | .w => if 0 < t.x.val then some ⟨⟨t.x.val - 1, pred_lt t.x⟩, t.y⟩ else none
  | .n => if h : t.y.val + 1 < H then some ⟨t.x, ⟨t.y.val + 1, h⟩⟩ else none
  | .s => if 0 < t.y.val then some ⟨t.x, ⟨t.y.val - 1, pred_lt t.y⟩⟩ else none
  | .up => none

theorem neighbor_some {t t' : MeshTile W H} {port : MeshPort} (h : t.neighbor port = some t') :
    port ≠ .up ∧ (t'.x : ℤ) = t.x + port.dx ∧ (t'.y : ℤ) = t.y + port.dy := by
  cases port <;> simp only [neighbor] at h
  case up => cases h
  all_goals
    split at h
    · cases h
      simp only [dx, dy]
      refine ⟨fun hport => ?_, ?_, ?_⟩
      · cases hport
      · omega
      · omega
    · cases h

theorem exists_neighbor {t : MeshTile W H} {port : MeshPort} (hport : port ≠ .up)
    (hx : 0 ≤ (t.x : ℤ) + port.dx ∧ (t.x : ℤ) + port.dx < W)
    (hy : 0 ≤ (t.y : ℤ) + port.dy ∧ (t.y : ℤ) + port.dy < H) : ∃ t', t.neighbor port = some t' := by
  cases port <;> simp only [dx, dy] at hx hy
  case n => exact ⟨_, dif_pos (by omega)⟩
  case e => exact ⟨_, dif_pos (by omega)⟩
  case w => exact ⟨_, if_pos (by omega)⟩
  case s => exact ⟨_, if_pos (by omega)⟩
  case up => exact absurd rfl hport

theorem neighbor_opposite {t t' : MeshTile W H} {port : MeshPort}
    (h : t.neighbor port = some t') : t'.neighbor port.opposite = some t := by
  obtain ⟨hport, hx, hy⟩ := neighbor_some h
  have hback : ∃ u, t'.neighbor port.opposite = some u := by
    apply exists_neighbor
    · cases port <;> simp_all [opposite]
    · cases port <;> simp_all [opposite, dx]
    · cases port <;> simp_all [opposite, dy]
  obtain ⟨u, hu⟩ := hback
  obtain ⟨-, hux, huy⟩ := neighbor_some hu
  have hsame : u = t := by
    ext
    · cases port <;> simp only [opposite, dx] at hx hux <;> omega
    · cases port <;> simp only [opposite, dy] at hy huy <;> omega
  rw [hu, hsame]

/-- The links into a tile, in the order in which flits travel: along the rows, then along
the columns. -/
def depth (t : MeshTile W H) : MeshPort → ℕ
  | .up => 0
  | .w => 1 + t.x.val
  | .e => W - t.x.val
  | .s => 1 + W + t.y.val
  | .n => 1 + W + (H - 1 - t.y.val)

/-- The links out of a tile, in the order in which they learn whether they are ready. -/
def height (t : MeshTile W H) : MeshPort → ℕ
  | .up => 0
  | .n => H - t.y.val
  | .s => 1 + t.y.val
  | .e => 1 + H + (W - 1 - t.x.val)
  | .w => 1 + H + t.x.val

theorem depth_le (t : MeshTile W H) (port : MeshPort) : t.depth port ≤ W + H := by
  have hx := t.x.isLt
  have hy := t.y.isLt
  cases port <;> simp only [depth] <;> omega

theorem height_le (t : MeshTile W H) (port : MeshPort) : t.height port ≤ W + H := by
  have hx := t.x.isLt
  have hy := t.y.isLt
  cases port <;> simp only [height] <;> omega

/-- A flit only goes on along links that come later. -/
theorem depth_lt {t t' : MeshTile W H} {output input : MeshPort}
    (h : t.neighbor output = some t') (hleg : legalTransition input output) :
    t.depth input < t'.depth output.opposite := by
  obtain ⟨hport, hx, hy⟩ := neighbor_some h
  have hxlt := t.x.isLt
  have hylt := t.y.isLt
  have hxlt' := t'.x.isLt
  have hylt' := t'.y.isLt
  cases output <;> simp only [dx, dy] at hx hy <;> cases input <;>
    simp only [depth, opposite] at * <;> first | omega | simp_all [legalTransition]

theorem height_lt {t t' : MeshTile W H} {output next : MeshPort} (h : t.neighbor output = some t')
    (hleg : legalTransition output.opposite next) : t'.height next < t.height output := by
  obtain ⟨hport, hx, hy⟩ := neighbor_some h
  have hxlt := t.x.isLt
  have hylt := t.y.isLt
  have hxlt' := t'.x.isLt
  have hylt' := t'.y.isLt
  cases output <;> simp only [dx, dy] at hx hy <;> cases next <;>
    simp only [height, opposite] at * <;> first | omega | simp_all [legalTransition]

end MeshTile

/-! ## One cycle -/

abbrev MeshState (W H : ℕ) := MeshTile W H → MeshRouterState

/-- What the tiles inject and eject, and what the unlinked outputs at the border see. -/
structure MeshInput (p : MeshParams) (W H : ℕ) where
  inject : MeshTile W H → MeshChannel p
  ejectReady : MeshTile W H → Bool
  edgeReady : MeshTile W H → MeshPort → Bool

/-- The input channel of every port, and the ready of every output. -/
@[ext]
structure MeshWires (p : MeshParams) (W H : ℕ) where
  inp : MeshTile W H → MeshPort → MeshChannel p
  rdy : MeshTile W H → MeshPort → Bool

namespace MeshWires

variable {p : MeshParams} {W H : ℕ}

def quiet (p : MeshParams) (W H : ℕ) : MeshWires p W H where
  inp := fun _ _ => .idle p
  rdy := fun _ _ => false

/-- All routers and links at once, from the wires `w`.  No flit comes in over the border. -/
def relax (m : MeshState W H) (i : MeshInput p W H) (w : MeshWires p W H) : MeshWires p W H where
  inp t port :=
    match t.neighbor port with
    | some t' => (m t').outputO (w.inp t') port.opposite
    | none => if port = .up then i.inject t else .idle p
  rdy t port :=
    match t.neighbor port with
    | some t' => (m t').inputReadyO (w.inp t') (w.rdy t') port.opposite
    | none => if port = .up then i.ejectReady t else i.edgeReady t port

/-- The wires agree on all signals that come before `d`: the channels in the order in
which flits travel, then the readies in the opposite one. -/
def Agree (d : ℕ) (w w' : MeshWires p W H) : Prop :=
  (∀ t port, t.depth port < d → w.inp t port = w'.inp t port) ∧
    ∀ t port, W + H + 1 + t.height port < d → w.rdy t port = w'.rdy t port

variable (m : MeshState W H) (i : MeshInput p W H)

theorem relax_inp_congr {w w' : MeshWires p W H} {d : ℕ}
    (h : ∀ t port, t.depth port < d → w.inp t port = w'.inp t port) (t : MeshTile W H)
    (port : MeshPort) (hd : t.depth port < d + 1) :
    (relax m i w).inp t port = (relax m i w').inp t port := by
  simp only [relax]
  split
  · rename_i t' hnbr
    apply MeshRouterState.outputO_congr
    intro input hleg
    have hback := MeshTile.neighbor_opposite hnbr
    have hlt := MeshTile.depth_lt hback hleg
    rw [opposite_opposite] at hlt
    exact h t' input (by omega)
  · rfl

theorem ranked : Settle.Ranked (relax m i) Agree (2 * (W + H + 1)) where
  zero _ _ := ⟨fun _ _ h => absurd h (Nat.not_lt_zero _), fun _ _ h => absurd h (Nat.not_lt_zero _)⟩
  step d w w' := by
    rintro ⟨hinp, hrdy⟩
    refine ⟨relax_inp_congr m i hinp, fun t port hd => ?_⟩
    simp only [relax]
    split
    · rename_i t' hnbr
      have hsame : w.inp t' = w'.inp t' := by
        funext input
        have hle := t'.depth_le input
        exact hinp t' input (by omega)
      rw [hsame]
      apply MeshRouterState.inputReadyO_congr
      intro output hleg
      have hlt := MeshTile.height_lt hnbr hleg
      exact hrdy t' output (by omega)
    · rfl
  all w w' := by
    rintro ⟨hinp, hrdy⟩
    ext t port : 3
    · have hle := t.depth_le port
      rw [hinp t port (by omega)]
    · have hle := t.height_le port
      rw [hrdy t port (by omega)]

/-- The wires of a cycle, settled from silence. -/
def settle : MeshWires p W H := (relax m i)^[2 * (W + H + 1)] (quiet p W H)

/-- The wires are consistent with every router and every link. -/
theorem settle_relax : relax m i (settle m i) = settle m i := (ranked m i).settled _

variable {m i} {t t' : MeshTile W H} {port : MeshPort}

theorem settle_inject : (settle m i).inp t .up = i.inject t := by
  rw [← settle_relax]
  rfl

theorem settle_inp (h : t.neighbor port = some t') :
    (settle m i).inp t' port.opposite = (m t).outputO ((settle m i).inp t) port := by
  conv_lhs => rw [← settle_relax]
  simp only [relax]
  rw [MeshTile.neighbor_opposite h, opposite_opposite]

theorem settle_inp_border (h : t.neighbor port = none) (hport : port ≠ .up) :
    (settle m i).inp t port = .idle p := by
  rw [← settle_relax]
  simp only [relax, h]
  exact if_neg hport

theorem settle_eject : (settle m i).rdy t .up = i.ejectReady t := by
  rw [← settle_relax]
  rfl

theorem settle_rdy (h : t.neighbor port = some t') : (settle m i).rdy t port =
      (m t').inputReadyO ((settle m i).inp t') ((settle m i).rdy t') port.opposite := by
  conv_lhs => rw [← settle_relax]
  simp only [relax, h]

end MeshWires

/-- The mesh from reset. -/
def mesh (p : MeshParams) (W H : ℕ) : Sync.Circuit (MeshState W H) (MeshInput p W H) where
  Init m := m = fun _ => .reset
  step m i := fun t =>
    (m t).step ((MeshWires.settle m i).inp t) ((MeshWires.settle m i).rdy t)

end OpenRV64
