/-
What a mesh does with the flits that it takes: each one leaves in the same cycle where
its route leads, no link carries two, and no request waits for ever.
-/
import OpenRV64.Mesh

namespace OpenRV64

open MeshPort MeshRouterState MeshTile MeshWires Sync

variable {p : MeshParams} {W H : ℕ}

namespace MeshRoute

/-- The signed hops that are left. -/
def dx (route : MeshRoute p) : ℤ :=
  if route.xWest then -(route.xHops.toNat : ℤ) else route.xHops.toNat

def dy (route : MeshRoute p) : ℤ :=
  if route.ySouth then -(route.yHops.toNat : ℤ) else route.yHops.toNat

def hops (route : MeshRoute p) : ℕ := route.xHops.toNat + route.yHops.toNat

end MeshRoute

namespace Mesh

variable (m : MeshState W H) (i : MeshInput p W H)

def inputReady (t : MeshTile W H) (port : MeshPort) : Bool :=
  (m t).inputReadyO ((settle m i).inp t) ((settle m i).rdy t) port

def output (t : MeshTile W H) (port : MeshPort) : MeshChannel p :=
  (m t).outputO ((settle m i).inp t) port

/-- The input that output `port` of tile `t` presents. -/
def granted (t : MeshTile W H) (port : MeshPort) : Option MeshPort :=
  (m t).grant ((settle m i).inp t) port

/-- A flit goes through output `port` of tile `t`. -/
def transfers (t : MeshTile W H) (port : MeshPort) : Bool :=
  (output m i t port).valid && (settle m i).rdy t port

/-- Tile `t` injects a flit. -/
def accepts (t : MeshTile W H) : Bool := (i.inject t).valid && inputReady m i t .up

/-- A flit leaves the mesh at tile `t`. -/
def ejects (t : MeshTile W H) : Bool := (output m i t .up).valid && i.ejectReady t

/-- Input `port` of tile `t` asks for an output and is not taken. -/
def waits (t : MeshTile W H) (port : MeshPort) : Bool :=
  ((settle m i).inp t port).valid && !inputReady m i t port

/-- The output that input `port` of tile `t` asks for. -/
def wanted (t : MeshTile W H) (port : MeshPort) : MeshPort :=
  targetOf ((settle m i).inp t port).route

/-- `there` is where a route leads from `t`. -/
def Leads (t : MeshTile W H) (route : MeshRoute p) (there : MeshTile W H) : Prop :=
  (there.x : ℤ) = t.x + route.dx ∧ (there.y : ℤ) = t.y + route.dy

/-- The link into port `port` of tile `t` carries the flit that tile `source` injects. -/
inductive Carries : MeshTile W H → MeshPort → MeshTile W H → Prop
  | inject (t : MeshTile W H) : (i.inject t).valid = true → Carries t .up t
  | hop {t t' source : MeshTile W H} {port next : MeshPort} : Carries t port source →
      granted m i t next = some port → t.neighbor next = some t' → Carries t' next.opposite source

/-- How many flits have gone through the output that input `port` of tile `t` waits for
since it waits. -/
def passedOver : Past (MeshState W H) (MeshInput p W H) → MeshTile W H → MeshPort → ℕ
  | [], _, _ => 0
  | (m, i) :: past, t, port =>
    if waits m i t port then
      passedOver past t port + (transfers m i t (wanted m i t port)).toNat
    else 0

/-- A source keeps the flit that was not taken. -/
def Keeps : Past (MeshState W H) (MeshInput p W H) → MeshInput p W H → Prop
  | [], _ => True
  | (m, i) :: _, i' => ∀ t, waits m i t .up = true → i'.inject t = i.inject t

/-- What the sources promise: routes stay inside the mesh, and flits wait. -/
structure Promises (past : Past (MeshState W H) (MeshInput p W H)) (_ : MeshState W H)
    (i : MeshInput p W H) : Prop where
  inside : ∀ t, (i.inject t).valid = true → ∃ there, Leads t (i.inject t).route there
  keeps : Keeps past i

/-- What was presented and not taken in the last cycle is presented again. -/
def Stays : Past (MeshState W H) (MeshInput p W H) → Prop
  | [] => True
  | (m₀, i₀) :: _ => ∀ t port, (output m₀ i₀ t port).valid = true →
      (settle m₀ i₀).rdy t port = false → output m i t port = output m₀ i₀ t port

/-- A cycle of the mesh as it should be. -/
structure Delivers (past : Past (MeshState W H) (MeshInput p W H)) : Prop where
  legal : ∀ t port, routeErrorO ((settle m i).inp t) port = false
  delivered : ∀ t, accepts m i t = true → ∃ there, Leads t (i.inject t).route there ∧
    ejects m i there = true ∧ (output m i there .up).flit = (i.inject t).flit ∧
      (output m i there .up).route.xHops = 0 ∧ (output m i there .up).route.yHops = 0
  once : ∀ t t' there, accepts m i t = true → accepts m i t' = true →
    Leads t (i.inject t).route there → Leads t' (i.inject t').route there → t = t'
  origin : ∀ there, ejects m i there = true →
    ∃ t, accepts m i t = true ∧ Leads t (i.inject t).route there
  stays : Stays m i past
  apart : ∀ t port source source', Carries m i t port source → Carries m i t port source' →
    source = source'
  fair : ∀ t port, passedOver past t port ≤ 4
  live : (∀ t, i.ejectReady t = true) → (∃ t, (i.inject t).valid = true) →
    ∃ there, ejects m i there = true

end Mesh

/-! ## Routes -/

/-- A flit that comes in by `port` still has the route with which it set out. -/
def Arrives (port : MeshPort) (route : MeshRoute p) : Prop :=
  match port with
  | .up => True
  | .w => route.xWest = false
  | .e => route.xWest = true
  | .n => route.xHops = 0 ∧ route.ySouth = true
  | .s => route.xHops = 0 ∧ route.ySouth = false

/-- The output that a route asks for, by what is left of it. -/
inductive Turn (route : MeshRoute p) : MeshPort → Prop
  | east : route.xHops ≠ 0 → route.xWest = false → Turn route .e
  | west : route.xHops ≠ 0 → route.xWest = true → Turn route .w
  | north : route.xHops = 0 → route.yHops ≠ 0 → route.ySouth = false → Turn route .n
  | south : route.xHops = 0 → route.yHops ≠ 0 → route.ySouth = true → Turn route .s
  | arrived : route.xHops = 0 → route.yHops = 0 → Turn route .up

theorem turn_targetOf (route : MeshRoute p) : Turn route (targetOf route) := by
  rw [targetOf]
  by_cases hx : route.xHops = 0
  · rw [if_neg (not_not.mpr hx)]
    by_cases hy : route.yHops = 0
    · rw [if_neg (not_not.mpr hy)]
      exact .arrived hx hy
    · rw [if_pos hy]
      cases hs : route.ySouth with
      | true => exact .south hx hy hs
      | false => exact .north hx hy hs
  · rw [if_pos hx]
    cases hw : route.xWest with
    | true => exact .west hx hw
    | false => exact .east hx hw

theorem Arrives.legal {port : MeshPort} {route : MeshRoute p} (h : Arrives port route) :
    legalTransition port (targetOf route) := by
  have hturn := turn_targetOf route
  revert hturn
  generalize targetOf route = target
  intro hturn
  cases hturn <;> cases port <;> simp_all [Arrives, legalTransition]

theorem toNat_pred {n : ℕ} {hops : BitVec n} (h : hops ≠ 0) :
    (hops - 1).toNat + 1 = hops.toNat := by
  have hpos : 0 < hops.toNat := Nat.pos_of_ne_zero fun hz =>
    h (BitVec.eq_of_toNat_eq (hz.trans BitVec.toNat_zero.symm))
  have hlt := hops.isLt
  have hone : (1 : BitVec n).toNat = 1 := by
    change (BitVec.ofNat n 1).toNat = 1
    rw [BitVec.toNat_ofNat, Nat.mod_eq_of_lt (by omega)]
  have hle : (1 : BitVec n) ≤ hops := by
    rw [BitVec.le_def, hone]
    exact hpos
  rw [BitVec.toNat_sub_of_le hle, hone]
  omega

/-- What a hop leaves of a route. -/
structure Hop (port : MeshPort) (route route' : MeshRoute p) : Prop where
  dx : route'.dx = route.dx - port.dx
  dy : route'.dy = route.dy - port.dy
  hops : route'.hops + 1 = route.hops
  arrives : Arrives port.opposite route'

theorem hop_x {route : MeshRoute p} {port : MeshPort} (hx : route.xHops ≠ 0)
    (hport : port.dx = if route.xWest then -1 else 1) (hy : port.dy = 0)
    (harrives : Arrives port.opposite { route with xHops := route.xHops - 1 }) :
    Hop port route { route with xHops := route.xHops - 1 } := by
  have hpred := toNat_pred hx
  constructor
  · simp only [MeshRoute.dx, hport]
    generalize (route.xHops - 1).toNat = left at hpred
    split <;> omega
  · rw [hy, sub_zero]
    rfl
  · simp only [MeshRoute.hops]
    generalize (route.xHops - 1).toNat = left at hpred
    omega
  · exact harrives

theorem hop_y {route : MeshRoute p} {port : MeshPort} (hy : route.yHops ≠ 0)
    (hport : port.dy = if route.ySouth then -1 else 1) (hx : port.dx = 0)
    (harrives : Arrives port.opposite { route with yHops := route.yHops - 1 }) :
    Hop port route { route with yHops := route.yHops - 1 } := by
  have hpred := toNat_pred hy
  constructor
  · rw [hx, sub_zero]
    rfl
  · simp only [MeshRoute.dy, hport]
    generalize (route.yHops - 1).toNat = left at hpred
    split <;> omega
  · simp only [MeshRoute.hops]
    generalize (route.yHops - 1).toNat = left at hpred
    omega
  · exact harrives

theorem hop_advancedRoute {route : MeshRoute p} (h : targetOf route ≠ .up) :
    Hop (targetOf route) route (advancedRoute route (targetOf route)) := by
  have hturn := turn_targetOf route
  revert hturn h
  generalize targetOf route = target
  intro h hturn
  cases hturn with
  | east hx hw =>
    rw [advancedRoute, if_pos hx]
    exact hop_x hx (by rw [hw]; rfl) rfl hw
  | west hx hw =>
    rw [advancedRoute, if_pos hx]
    exact hop_x hx (by rw [hw]; rfl) rfl hw
  | north hx hy hs =>
    rw [advancedRoute, if_pos hy]
    exact hop_y hy (by rw [hs]; rfl) rfl ⟨hx, hs⟩
  | south hx hy hs =>
    rw [advancedRoute, if_pos hy]
    exact hop_y hy (by rw [hs]; rfl) rfl ⟨hx, hs⟩
  | arrived hx hy => exact absurd rfl h

/-- A route that ends in the mesh goes on inside it. -/
theorem exists_neighbor_of_leads {t there : MeshTile W H} {route : MeshRoute p}
    (h : Mesh.Leads t route there) (hup : targetOf route ≠ .up) :
    ∃ t', t.neighbor (targetOf route) = some t' := by
  have hturn := turn_targetOf route
  have hx := h.1
  have hy := h.2
  have hxlt := there.x.isLt
  have hylt := there.y.isLt
  have hxt := t.x.isLt
  have hyt := t.y.isLt
  apply exists_neighbor hup
  all_goals
    revert hturn
    generalize targetOf route = target
    intro hturn
    rw [MeshRoute.dx] at hx
    rw [MeshRoute.dy] at hy
    cases hturn with
    | east hne hw =>
      have hpred := toNat_pred hne
      rw [hw] at hx
      simp only [dx, dy, if_low] at *
      omega
    | west hne hw =>
      have hpred := toNat_pred hne
      rw [hw] at hx
      simp only [dx, dy, if_true] at *
      omega
    | north _ hne hs =>
      have hpred := toNat_pred hne
      rw [hs] at hy
      simp only [dx, dy, if_low] at *
      omega
    | south _ hne hs =>
      have hpred := toNat_pred hne
      rw [hs] at hy
      simp only [dx, dy, if_true] at *
      omega
    | arrived _ _ =>
      simp only [dx, dy]
      omega

namespace Mesh

variable {m : MeshState W H} {i : MeshInput p W H} {t t' source source' : MeshTile W H}
  {port next : MeshPort}

/-! ## The flit on a link -/

/-- What a link shows of the flit that it carries. -/
structure Bears (m : MeshState W H) (i : MeshInput p W H) (t : MeshTile W H)
    (port : MeshPort) (source : MeshTile W H) : Prop where
  valid : ((settle m i).inp t port).valid = true
  sent : (i.inject source).valid = true
  flit : ((settle m i).inp t port).flit = (i.inject source).flit
  x : (t.x : ℤ) + ((settle m i).inp t port).route.dx = source.x + (i.inject source).route.dx
  y : (t.y : ℤ) + ((settle m i).inp t port).route.dy = source.y + (i.inject source).route.dy
  arrives : Arrives port ((settle m i).inp t port).route

theorem inp_of_granted (hgr : granted m i t next = some port) (hnbr : t.neighbor next = some t') :
    (settle m i).inp t' next.opposite =
      { valid := true
        flit := ((settle m i).inp t port).flit
        route := advancedRoute ((settle m i).inp t port).route next } := by
  rw [settle_inp hnbr, outputO_of_grant hgr]

/-- A granted input wants the output that it is granted. -/
theorem wanted_of_granted (hgr : granted m i t next = some port) : wanted m i t port = next :=
  (requests_iff.mp (requests_of_grant hgr)).2.2

theorem Bears.hop (h : Bears m i t port source) (hgr : granted m i t next = some port)
    (hnbr : t.neighbor next = some t') : Bears m i t' next.opposite source := by
  obtain ⟨hup, hx, hy⟩ := neighbor_some hnbr
  have hwanted : targetOf ((settle m i).inp t port).route = next := wanted_of_granted hgr
  have hhop := hop_advancedRoute (hwanted ▸ hup)
  rw [hwanted] at hhop
  have hinp := inp_of_granted hgr hnbr
  have hbx := h.x
  have hby := h.y
  have hdx := hhop.dx
  have hdy := hhop.dy
  constructor
  · rw [hinp]
  · exact h.sent
  · rw [hinp]
    exact h.flit
  · rw [hinp]
    change (t'.x : ℤ) + (advancedRoute _ next).dx = _
    omega
  · rw [hinp]
    change (t'.y : ℤ) + (advancedRoute _ next).dy = _
    omega
  · rw [hinp]
    exact hhop.arrives

theorem Carries.bears (h : Carries m i t port source) : Bears m i t port source := by
  induction h with
  | inject t hval =>
    refine ⟨?_, hval, ?_, ?_, ?_, trivial⟩ <;> rw [settle_inject]
    exact hval
  | hop _ hgr hnbr ih => exact ih.hop hgr hnbr

/-- A flit on a link comes in at the tile or from a router before it. -/
theorem Carries.cases_link (h : Carries m i t port source) :
    (port = .up ∧ t = source) ∨ ∃ t₀ port₀ next, port = next.opposite ∧
      t₀.neighbor next = some t ∧ granted m i t₀ next = some port₀ ∧
        Carries m i t₀ port₀ source := by
  cases h with
  | inject _ _ => exact .inl ⟨rfl, rfl⟩
  | hop hcarry hgr hnbr =>
    exact .inr ⟨_, _, _, rfl, hnbr, hgr, hcarry⟩

theorem opposite_eq_up (h : opposite next = .up) : next = .up := by
  rw [← opposite_opposite next, h]
  rfl

theorem Carries.unique (h : Carries m i t port source) (h' : Carries m i t port source') :
    source = source' := by
  induction h with
  | inject t _ =>
    rcases h'.cases_link with ⟨-, hsame⟩ | ⟨t₀, port₀, next, hport, hnbr, -, -⟩
    · exact hsame
    · exact absurd (opposite_eq_up hport.symm) (neighbor_some hnbr).1
  | hop hcarry hgr hnbr ih =>
  rcases h'.cases_link with ⟨hport, -⟩ | ⟨t₀, port₀, next, hport, hneighbor₀, hgrant₀, h₀⟩
  · exact absurd (opposite_eq_up hport) (neighbor_some hnbr).1
  have hnxt := congrArg opposite hport
  rw [opposite_opposite, opposite_opposite] at hnxt
  rw [← hnxt] at hneighbor₀ hgrant₀
  have hback := neighbor_opposite hnbr
  rw [neighbor_opposite hneighbor₀] at hback
  cases hback
  rw [hgr] at hgrant₀
  cases hgrant₀
  exact ih h₀

/-- What comes in by a port that is not the local one was presented by the neighbor. -/
theorem exists_granted (hval : ((settle m i).inp t port).valid)
    (hport : port ≠ .up) : ∃ t₀ port₀ next, port = next.opposite ∧
      t₀.neighbor next = some t ∧ granted m i t₀ next = some port₀ ∧
        t₀.depth port₀ < t.depth port := by
  cases hnbr : t.neighbor port with
  | none =>
    rw [settle_inp_border hnbr hport] at hval
    cases hval
  | some t₀ =>
    have hback := neighbor_opposite hnbr
    have hinp := settle_inp (m := m) (i := i) hback
    rw [opposite_opposite] at hinp
    rw [hinp] at hval
    obtain ⟨port₀, hgr⟩ := grant_of_valid hval
    obtain ⟨-, hleg, htgt⟩ := requests_iff.mp (requests_of_grant hgr)
    have hlt := depth_lt hback (htgt ▸ hleg)
    rw [opposite_opposite] at hlt
    exact ⟨t₀, port₀, port.opposite, (opposite_opposite port).symm, hback, hgr, hlt⟩

theorem valid_of_granted (hgr : granted m i t next = some port) : ((settle m i).inp t port).valid :=
  (requests_iff.mp (requests_of_grant hgr)).1

/-- Every flit on a link is one that some tile injects. -/
theorem exists_carries (hval : ((settle m i).inp t port).valid) :
    ∃ source, Carries m i t port source := by
  induction hd : t.depth port using Nat.strong_induction_on generalizing t port with
  | _ d ih =>
  by_cases hport : port = .up
  · subst hport
    rw [settle_inject] at hval
    exact ⟨t, .inject t hval⟩
  · obtain ⟨t₀, port₀, next, rfl, hnbr, hgr, hlt⟩ := exists_granted hval hport
    obtain ⟨source, hcarry⟩ := ih _ (hd ▸ hlt) (valid_of_granted hgr) rfl
    exact ⟨source, .hop hcarry hgr hnbr⟩

/-! ## Readiness along the way of a flit -/

theorem inputReady_of_granted (hgr : granted m i t next = some port) :
    inputReady m i t port = (settle m i).rdy t next :=
  inputReadyO_of_grant hgr

/-- A flit is taken along its whole way or nowhere. -/
theorem Carries.ready (h : Carries m i t port source) :
    inputReady m i t port = inputReady m i source .up := by
  induction h with
  | inject t _ => rfl
  | hop _ hgr hnbr ih =>
    rw [← ih, inputReady_of_granted hgr, settle_rdy hnbr]
    rfl

/-- A flit that is taken goes on to a tile that ejects it. -/
theorem Carries.ejected (hcarry : Carries m i t port source)
    (hinside : ∃ there, Leads source (i.inject source).route there)
    (hready : inputReady m i t port) :
    ∃ there port', granted m i there .up = some port' ∧ Carries m i there port' source ∧
      ejects m i there := by
  induction hhops : ((settle m i).inp t port).route.hops using
    Nat.strong_induction_on generalizing t port with
  | _ hops ih =>
    obtain ⟨next, hgr, hrdy⟩ := exists_grant_of_ready hready
    by_cases hnxt : next = .up
    · subst hnxt
      refine ⟨t, port, hgr, hcarry, ?_⟩
      rw [ejects, output, outputO_of_grant hgr, Bool.true_and]
      exact settle_eject.symm.trans hrdy
    have hwanted : targetOf ((settle m i).inp t port).route = next := wanted_of_granted hgr
    obtain ⟨there, hx, hy⟩ := hinside
    have hbears := hcarry.bears
    have hleads : Leads t ((settle m i).inp t port).route there :=
      ⟨hx.trans hbears.x.symm, hy.trans hbears.y.symm⟩
    obtain ⟨t', hnbr⟩ := exists_neighbor_of_leads hleads (hwanted ▸ hnxt)
    rw [hwanted] at hnbr
    have hfar := hcarry.hop hgr hnbr
    apply ih _ _ hfar _ rfl
    · have hhop := (hop_advancedRoute (hwanted ▸ hnxt)).hops
      rw [hwanted] at hhop
      rw [inp_of_granted hgr hnbr]
      change (advancedRoute _ next).hops < hops
      omega
    · rw [hfar.ready, ← hcarry.ready]
      exact hready

/-! ## From one cycle to the next -/

/-- An output that is locked is asked for by the input that it is locked to. -/
def Locked (m : MeshState W H) (i : MeshInput p W H) : Prop :=
  ∀ t port, (m t).holdQ port = true →
    requests ((settle m i).inp t) port ((m t).holdSelectQ port) = true

theorem requests_congr {inp inp' : MeshPort → MeshChannel p} {input : MeshPort}
    (h : inp input = inp' input) (port : MeshPort) :
    requests inp port input = requests inp' port input := by
  rw [requests, requests, h]

section Next

variable {i' : MeshInput p W H} (hlock : Locked m i)

include hlock

/-- A grant that was not taken is given again when the flit is still there. -/
theorem granted_step (hgr : granted m i t next = some port) (hrdy : (settle m i).rdy t next = false)
    (hsame : (settle ((mesh p W H).step m i) i').inp t port = (settle m i).inp t port) :
    granted ((mesh p W H).step m i) i' t next = some port := by
  have hhold : ((mesh p W H).step m i t).holdQ next := by
    refine (holdQ_step (hlock t next)).trans ?_
    rw [hrdy, Bool.not_false, Bool.and_true]
    exact Option.isSome_of_eq_some hgr
  have hsel : ((mesh p W H).step m i t).holdSelectQ next = port := holdSelectQ_step hgr hrdy
  rw [granted, grant, if_pos hhold, hsel, requests_congr hsame, requests_of_grant hgr, if_pos rfl]

variable (hkeeps : ∀ t, waits m i t .up → i'.inject t = i.inject t)

include hkeeps

/-- A flit that was not taken is still on every link on which it was shown. -/
theorem inp_step (hwaits : waits m i t port) :
    (settle ((mesh p W H).step m i) i').inp t port = (settle m i).inp t port := by
  induction hd : t.depth port using Nat.strong_induction_on generalizing t port with
  | _ d ih =>
  by_cases hport : port = .up
  · subst hport
    rw [settle_inject, settle_inject]
    exact hkeeps t hwaits
  rw [waits, Bool.and_eq_true, Bool.not_eq_true'] at hwaits
  obtain ⟨t₀, port₀, next, rfl, hnbr, hgr, hlt⟩ := exists_granted hwaits.1 hport
  have hrdy : (settle m i).rdy t₀ next = false := (settle_rdy hnbr).trans hwaits.2
  have hwaits₀ : waits m i t₀ port₀ := by
    rw [waits, valid_of_granted hgr, inputReady_of_granted hgr, hrdy]
    rfl
  have hsame := ih _ (hd ▸ hlt) hwaits₀ rfl
  rw [inp_of_granted (granted_step hlock hgr hrdy hsame) hnbr, inp_of_granted hgr hnbr, hsame]

theorem Locked.step : Locked ((mesh p W H).step m i) i' := by
  intro t next hhold
  have hnxt : ((granted m i t next).isSome && !(settle m i).rdy t next) :=
    (holdQ_step (hlock t next)).symm.trans hhold
  rw [Bool.and_eq_true, Bool.not_eq_true'] at hnxt
  obtain ⟨port, hgr⟩ := Option.isSome_iff_exists.mp hnxt.1
  have hwaits : waits m i t port := by
    rw [waits, valid_of_granted hgr, inputReady_of_granted hgr, hnxt.2]
    rfl
  have hsel : ((mesh p W H).step m i t).holdSelectQ next = port := holdSelectQ_step hgr hnxt.2
  rw [hsel, requests_congr (inp_step hlock hkeeps hwaits)]
  exact requests_of_grant hgr

theorem stays_step : Stays ((mesh p W H).step m i) i' ((m, i) :: past) := by
  intro t next hval hrdy
  obtain ⟨port, hgr⟩ := grant_of_valid hval
  have hwaits : waits m i t port := by
    rw [waits, valid_of_granted hgr, inputReady_of_granted hgr, hrdy]
    rfl
  have hsame := inp_step hlock hkeeps hwaits
  have hgr' := granted_step hlock hgr hrdy hsame
  rw [output, output, outputO_of_grant hgr', outputO_of_grant hgr, hsame]

end Next

/-- A flit on a link asks for an output that it may leave by. -/
theorem requests_wanted (hval : ((settle m i).inp t port).valid) :
    requests ((settle m i).inp t) (wanted m i t port) port := by
  obtain ⟨source, hcarry⟩ := exists_carries hval
  exact requests_iff.mpr ⟨hval, hcarry.bears.arrives.legal, rfl⟩

theorem exists_granted_wanted (hlock : Locked m i) (hval : ((settle m i).inp t port).valid) :
    ∃ port', granted m i t (wanted m i t port) = some port' :=
  Option.isSome_iff_exists.mp (grant_isSome (hlock t _) (requests_wanted hval))

/-- What a waiting request has let pass and what it may still let pass. -/
def Passing (past : Past (MeshState W H) (MeshInput p W H)) (m : MeshState W H)
    (i : MeshInput p W H) (t : MeshTile W H) (port : MeshPort) : Prop :=
  passedOver past t port = 0 ∨
    (((settle m i).inp t port).valid = true ∧
      passedOver past t port + (m t).slack (wanted m i t port) port ≤ 4)

theorem Passing.le {past : Past (MeshState W H) (MeshInput p W H)} (h : Passing past m i t port) :
    passedOver past t port + (m t).slack (wanted m i t port) port ≤ 4 := by
  rcases h with hz | ⟨-, hle⟩
  · rw [hz, Nat.zero_add]
    exact slack_le _ _ _
  · exact hle

theorem Passing.step {past : Past (MeshState W H) (MeshInput p W H)}
    {i' : MeshInput p W H} (hlock : Locked m i)
    (hkeeps : ∀ t, waits m i t .up → i'.inject t = i.inject t)
    (h : Passing past m i t port) : Passing ((m, i) :: past) ((mesh p W H).step m i) i' t port := by
  cases hwaits : waits m i t port with
  | false =>
    left
    rw [passedOver, hwaits, if_low]
  | true =>
    right
    have hsame := inp_step hlock hkeeps hwaits
    have hle := h.le
    rw [waits, Bool.and_eq_true, Bool.not_eq_true'] at hwaits
    obtain ⟨port', hgr⟩ := exists_granted_wanted hlock hwaits.1
    have href : (m t).grant ((settle m i).inp t) (wanted m i t port) = some port →
        (settle m i).rdy t (wanted m i t port) = false := fun hgranted =>
      (inputReady_of_granted hgranted).symm.trans hwaits.2
    have hslack := slack_step (hlock t _) (requests_wanted hwaits.1) href
    have htransfers : transfers m i t (wanted m i t port) =
        (settle m i).rdy t (wanted m i t port) := by
      rw [transfers, output, outputO_of_grant hgr, Bool.true_and]
    have hwanted : wanted ((mesh p W H).step m i) i' t port = wanted m i t port := by
      rw [wanted, hsame]
      rfl
    refine ⟨hsame ▸ hwaits.1, ?_⟩
    rw [passedOver, waits, hwaits.1, hwaits.2, Bool.not_false, Bool.and_self, if_pos rfl,
      htransfers, hwanted]
    change _ + ((m t).step _ _).slack _ _ ≤ 4
    omega

/-! ## Every run -/

variable {past : Past (MeshState W H) (MeshInput p W H)}

/-- What holds in every cycle in which the sources keep their promise. -/
structure Steady (past : Past (MeshState W H) (MeshInput p W H)) (m : MeshState W H)
    (i : MeshInput p W H) : Prop where
  locked : Locked m i
  stays : Stays m i past
  passing : ∀ t port, Passing past m i t port

theorem steady_of_run (hrun : Run (mesh p W H) Promises past m)
    (hpromise : Promises past m i) : Steady past m i := by
  induction hrun generalizing i with
  | reset hinit =>
    refine ⟨fun t port hhold => ?_, trivial, fun _ _ => .inl rfl⟩
    have hreset := congrFun hinit t
    rw [hreset] at hhold
    cases hhold
  | cycle i₀ _ henv ih =>
    have h := ih henv
    exact ⟨h.locked.step hpromise.keeps, stays_step h.locked hpromise.keeps,
      fun t port => (h.passing t port).step h.locked hpromise.keeps⟩

/-- With all tiles ready to eject, following the grants leads to one that does. -/
theorem exists_ejects (hlock : Locked m i) (hrdy : ∀ t, i.ejectReady t)
    (hinside : ∀ t, (i.inject t).valid → ∃ there, Leads t (i.inject t).route there)
    (hval : ((settle m i).inp t port).valid) : ∃ there, ejects m i there := by
  induction hd : W + H - t.depth port using Nat.strong_induction_on generalizing t port with
  | _ d ih =>
    obtain ⟨port', hgr⟩ := exists_granted_wanted hlock hval
    by_cases hup : wanted m i t port = .up
    · refine ⟨t, ?_⟩
      rw [hup] at hgr
      rw [ejects, output, outputO_of_grant hgr, hrdy]
      rfl
    have hval' := valid_of_granted hgr
    have hwanted' : targetOf ((settle m i).inp t port').route =
        wanted m i t port := wanted_of_granted hgr
    obtain ⟨source, hcarry⟩ := exists_carries hval'
    have hbears := hcarry.bears
    obtain ⟨there, hx, hy⟩ := hinside source hbears.sent
    have hleads : Leads t ((settle m i).inp t port').route there :=
      ⟨hx.trans hbears.x.symm, hy.trans hbears.y.symm⟩
    obtain ⟨t', hnbr⟩ := exists_neighbor_of_leads hleads (hwanted' ▸ hup)
    rw [hwanted'] at hnbr
    have hfar := (hcarry.hop hgr hnbr).bears.valid
    have hleg := (requests_iff.mp (requests_wanted hval)).2.1
    have hdep := depth_lt hnbr hleg
    have hle := t'.depth_le (wanted m i t port).opposite
    exact ih _ (by omega) hfar rfl

/-- The tile that ejects a flit is where its route leads. -/
theorem Carries.arrived (hcarry : Carries m i t port source) (hgr : granted m i t .up = some port) :
    Leads source (i.inject source).route t ∧ (output m i t .up).flit = (i.inject source).flit ∧
      (output m i t .up).route.xHops = 0 ∧ (output m i t .up).route.yHops = 0 := by
  have hbears := hcarry.bears
  have hturn := turn_targetOf ((settle m i).inp t port).route
  have hwanted : targetOf ((settle m i).inp t port).route = .up := wanted_of_granted hgr
  rw [hwanted] at hturn
  cases hturn with
  | arrived hx hy =>
    have hdx : ((settle m i).inp t port).route.dx = 0 := by
      simp [MeshRoute.dx, hx]
    have hdy : ((settle m i).inp t port).route.dy = 0 := by
      simp [MeshRoute.dy, hy]
    have hbx := hbears.x
    have hby := hbears.y
    rw [hdx, add_zero] at hbx
    rw [hdy, add_zero] at hby
    rw [output, outputO_of_grant hgr]
    exact ⟨⟨hbx, hby⟩, hbears.flit, hx, hy⟩

/-- A tile ejects the flit of a tile that injects in this cycle. -/
theorem exists_origin (h : ejects m i t) :
    ∃ port source, granted m i t .up = some port ∧ Carries m i t port source ∧
      accepts m i source := by
  rw [ejects, Bool.and_eq_true] at h
  obtain ⟨port, hgr⟩ := grant_of_valid h.1
  obtain ⟨source, hcarry⟩ := exists_carries (valid_of_granted hgr)
  refine ⟨port, source, hgr, hcarry, ?_⟩
  rw [accepts, hcarry.bears.sent, Bool.true_and, ← hcarry.ready,
    inputReady_of_granted hgr, settle_eject]
  exact h.2

theorem accepts_ejects
    (hinside : ∀ t, (i.inject t).valid → ∃ there, Leads t (i.inject t).route there)
    (h : accepts m i source) :
    ∃ there port', granted m i there .up = some port' ∧ Carries m i there port' source ∧
      ejects m i there := by
  rw [accepts, Bool.and_eq_true] at h
  exact (Carries.inject source h.1).ejected (hinside source h.1) h.2

theorem leads_unique {route : MeshRoute p} {there there' : MeshTile W H}
    (h : Leads t route there) (h' : Leads t route there') : there = there' := by
  have hx := h.1.trans h'.1.symm
  have hy := h.2.trans h'.2.symm
  ext <;> omega

/-- In every run in which routes stay inside the mesh and sources wait, the mesh delivers. -/
theorem delivers (hrun : Run (mesh p W H) Promises past m)
    (hpromise : Promises past m i) : Delivers m i past := by
  have hsteady := steady_of_run hrun hpromise
  constructor
  · intro t port
    rw [routeErrorO, Bool.and_eq_false_iff, Bool.not_eq_false']
    by_cases hvalid : ((settle m i).inp t port).valid = true
    · exact Or.inr (requests_iff.mp (requests_wanted hvalid)).2.1
    · exact Or.inl ((Bool.not_eq_true _).mp hvalid)
  · intro t haccepts
    obtain ⟨there, port', hgrant, hcarries, hejects⟩ := accepts_ejects hpromise.inside haccepts
    obtain ⟨hleads, hflit, hx, hy⟩ := hcarries.arrived hgrant
    exact ⟨there, hleads, hejects, hflit, hx, hy⟩
  · intro t t' there haccepts haccepts' hleads hleads'
    obtain ⟨far, port, hgrant, hcarries, -⟩ := accepts_ejects hpromise.inside haccepts
    obtain ⟨far', port', hgrant', hcarries', -⟩ := accepts_ejects hpromise.inside haccepts'
    have hfar := leads_unique (hcarries.arrived hgrant).1 hleads
    have hfar' := leads_unique (hcarries'.arrived hgrant').1 hleads'
    subst hfar hfar'
    rw [hgrant] at hgrant'
    cases hgrant'
    exact hcarries.unique hcarries'
  · intro there hejects
    obtain ⟨port, source, hgrant, hcarries, haccepts⟩ := exists_origin hejects
    exact ⟨source, haccepts, (hcarries.arrived hgrant).1⟩
  · exact hsteady.stays
  · exact fun t port source source' h h' => h.unique h'
  · intro t port
    have hle := (hsteady.passing t port).le
    omega
  · rintro hready ⟨t, hvalid⟩
    rw [← settle_inject (m := m)] at hvalid
    exact exists_ejects hsteady.locked hready hpromise.inside hvalid

/-! ## Two tiles in a row -/

def smallFlits : MeshParams := ⟨8, 4⟩

def oneHopEast : MeshChannel smallFlits := ⟨true, 0x5a, ⟨1, 0, false, false⟩⟩

/-- The western tile injects a flit for the eastern one, which takes it. -/
def eastward : MeshInput smallFlits 2 1 where
  inject t := if t.x.val = 0 then oneHopEast else .idle smallFlits
  ejectReady := fun _ => true
  edgeReady := fun _ _ => false

theorem eastward_promises (m : MeshState 2 1) : Promises [] m eastward where
  inside t hval := by
    refine ⟨⟨Fin.last 1, t.y⟩, ?_⟩
    have hinject : eastward.inject t = if t.x.val = 0 then oneHopEast else .idle smallFlits := rfl
    rw [hinject] at hval ⊢
    split at hval
    · rename_i hx
      rw [if_pos hx, Leads, hx]
      exact ⟨rfl, (add_zero _).symm⟩
    · cases hval
  keeps := trivial

theorem delivers_eastward : Delivers (fun _ => reset) eastward [] :=
  delivers (.reset rfl) (eastward_promises _)

end Mesh

end OpenRV64
