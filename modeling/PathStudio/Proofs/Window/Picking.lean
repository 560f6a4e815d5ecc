import PathStudio.Window.Picking
import PathStudio.Proofs.Simulation.Actions
import PathStudio.Proofs.Simulation.Course

/-!
# What a click finds

A click looks at one part of the path after the other and takes the first that is
near. So what it takes hold of is a part that the path has and that is seen within
the radius, and when it takes nothing, none is.
-/

namespace PathStudio.Window

variable {ν : Type} [Add ν] [Sub ν] [Mul ν] [Div ν] [Neg ν] [Scalar ν]

/-- Whether a pixel is strictly within a radius of the mouse, as the squares of both lengths
compare. -/
def Within (mouse : Point ν) (radius : ν) (pixel : Point ν) : Prop :=
  ∃ d, squaredDistance pixel mouse = .ok d ∧ Scalar.lt d (radius * radius) = true

/-- The parts that a path has, each with the pixel at which it is seen. A control point belongs to
an arc and is seen in robot mode. -/
inductive Shows (mode : Mode) (l : Layout ν) : Hit → Point ν → Prop
  | start : Shows mode l ⟨.start, none⟩ (toPixels l.start.point)
  | startHeading {grip : Point ν} (hg : handle l.start = .ok grip) :
    Shows mode l ⟨.startHeading, none⟩ grip
  | action {i : Nat} {a : Action ν} (there : l.waypoints[i]? = some (.action a)) :
    Shows mode l ⟨.action, some i⟩ (toPixels a.pose.point)
  | waypoint {i : Nat} {m : Move ν} (there : l.waypoints[i]? = some (.move m)) :
    Shows mode l ⟨.waypoint, some i⟩ (toPixels m.point)
  | heading {i : Nat} {m : Move ν} {grip : Point ν} (there : l.waypoints[i]? = some (.move m))
    (hg : handle m.pose = .ok grip) : Shows mode l ⟨.heading, some i⟩ grip
  | control {i : Nat} {m : Move ν} {c : Point ν} (there : l.waypoints[i]? = some (.move m))
    (bends : m.kind = .arc) (robot : mode.isRobot = true) (hc : l.arcControl i = .ok (some c)) :
    Shows mode l ⟨.control, some i⟩ (toPixels c)

/-- What is found is one of the things to look at, seen within the radius; when nothing is found, none
of them is. -/
def Finds {α : Type} (mouse : Point ν) (radius : ν) (shows : α → Point ν → Prop) : Option α → Prop
  | some a => ∃ pixel, shows a pixel ∧ Within mouse radius pixel
  | none => ∀ a pixel, shows a pixel → ¬ Within mouse radius pixel

section Looking

variable {α β : Type} {mouse pixel : Point ν} {radius : ν} {shows : α → Point ν → Prop}

theorem near_eq_ok {answer : Bool} (h : near mouse radius pixel = .ok answer) :
    answer = true ↔ Within mouse radius pixel := by
  obtain ⟨d, hd, h⟩ := bind_eq_ok.mp h
  rw [Within, ← return_eq_ok.mp h]
  constructor
  · intro below
    exact ⟨d, hd, below⟩
  · rintro ⟨d', hd', below⟩
    rwa [Except.ok.inj (hd.symm.trans hd')]

theorem finds_nothing : Finds mouse radius (fun (_ : α) _ => False) none := fun _ _ h => h.elim

theorem Finds.congr {shows' : α → Point ν → Prop} {found : Option α}
    (h : Finds mouse radius shows found) (same : ∀ a p, shows' a p ↔ shows a p) :
    Finds mouse radius shows' found := by
  have equal : shows' = shows := funext fun a => funext fun p => propext (same a p)
  rwa [equal]

/-- Looking at one thing before the others. -/
theorem Finds.look {a : α} {rest : Outcome (Option α)} {found : Option α}
    (h : (near mouse radius pixel >>= fun hit => if hit = true then pure (some a) else rest) =
      .ok found)
    (others : ∀ found, rest = .ok found → Finds mouse radius shows found) :
    Finds mouse radius (fun b p => b = a ∧ p = pixel ∨ shows b p) found := by
  obtain ⟨hit, seen, h⟩ := bind_eq_ok.mp h
  have within := near_eq_ok seen
  cases hit with
  | true =>
    obtain rfl := return_eq_ok.mp h
    exact ⟨pixel, .inl ⟨rfl, rfl⟩, within.mp rfl⟩
  | false =>
    have missed : ¬ Within mouse radius pixel := fun inside => Bool.noConfusion (within.mpr inside)
    have rest := others found h
    cases found with
    | some b =>
      obtain ⟨p, shown, inside⟩ := rest
      exact ⟨p, .inr shown, inside⟩
    | none =>
      rintro b p (⟨-, rfl⟩ | shown)
      · exact missed
      · exact rest b p shown

/-- Looking at some things before the others, and naming what is found among them. -/
theorem Finds.orElse {shows' : β → Point ν → Prop} (name : α → β) {first : Outcome (Option α)}
    {next : Option α → Outcome (Option β)} {found : Option β} (h : first >>= next = .ok found)
    (hit : ∀ a, next (some a) = .ok (some (name a)))
    (early : ∀ found, first = .ok found → Finds mouse radius shows found)
    (others : ∀ found, next none = .ok found → Finds mouse radius shows' found) :
    Finds mouse radius (fun b p => (∃ a, b = name a ∧ shows a p) ∨ shows' b p) found := by
  obtain ⟨result, hr, h⟩ := bind_eq_ok.mp h
  have before := early result hr
  cases result with
  | some a =>
    obtain ⟨p, shown, inside⟩ := before
    obtain rfl := Except.ok.inj ((hit a).symm.trans h)
    exact ⟨p, .inl ⟨a, rfl, shown⟩, inside⟩
  | none =>
    have rest := others found h
    cases found with
    | some b =>
      obtain ⟨p, shown, inside⟩ := rest
      exact ⟨p, .inr shown, inside⟩
    | none =>
      rintro b p (⟨a, -, shown⟩ | shown)
      · exact before a p shown
      · exact rest b p shown

/-- Looking at the handle of a pose at last. -/
theorem finds_handle {a : α} {pose : Pose ν} {found : Option α}
    (h : (handle pose >>= fun grip => near mouse radius grip >>= fun hit =>
      if hit = true then pure (some a) else pure none) = .ok found) :
    Finds mouse radius (fun b p => b = a ∧ handle pose = .ok p) found := by
  obtain ⟨grip, hg, h⟩ := bind_eq_ok.mp h
  have last : Finds mouse radius (fun b p => b = a ∧ p = grip ∨ False) found := by
    refine Finds.look h fun _ none => ?_
    obtain rfl := return_eq_ok.mp none
    exact finds_nothing
  refine last.congr fun b p => ?_
  rw [hg, or_false, Except.ok.injEq, eq_comm (a := grip)]

end Looking

/-! ## The parts of a move -/

/-- The parts of a move, each with the pixel at which it is seen. -/
inductive ShowsPart (showControl : Bool) (before : Pose ν) (m : Move ν) : Part → Point ν → Prop
  | point : ShowsPart showControl before m .waypoint (toPixels m.point)
  | control {c : Point ν} (shown : showControl = true)
    (hc : Layout.controlOf m.motion before.point m.point = .ok (some c)) :
    ShowsPart showControl before m .control (toPixels c)
  | heading {grip : Point ν} (hg : handle m.pose = .ok grip) :
    ShowsPart showControl before m .heading grip

/-- The parts of the waypoints from a place on. -/
def ShowsFrom (showControl : Bool) (before : Pose ν) (index : Nat) :
    List (Waypoint ν) → Hit → Point ν → Prop
  | [], _, _ => False
  | .action a :: rest, hit, pixel =>
    hit = ⟨.action, some index⟩ ∧ pixel = toPixels a.pose.point ∨
      ShowsFrom showControl before (index + 1) rest hit pixel
  | .move m :: rest, hit, pixel =>
    (∃ part, hit = ⟨part, some index⟩ ∧ ShowsPart showControl before m part pixel) ∨
      ShowsFrom showControl m.pose (index + 1) rest hit pixel

section Moves

variable {showControl : Bool} {before : Pose ν} {m : Move ν} {mouse : Point ν} {radius : ν}

theorem finds_pickMove {found : Option Part}
    (h : pickMove showControl before m mouse radius = .ok found) :
    Finds mouse radius (ShowsPart showControl before m) found := by
  have parts : Finds mouse radius (fun part p => part = .waypoint ∧ p = toPixels m.point ∨
      (∃ c, (showControl = true ∧ Layout.controlOf m.motion before.point m.point = .ok (some c)) ∧
        part = .control ∧ p = toPixels c) ∨ part = .heading ∧ handle m.pose = .ok p) found := by
    refine Finds.look h fun found h => ?_
    -- the control point that is looked at between the point and the handle, if there is one
    cases showControl with
    | false =>
      refine (finds_handle h).congr fun part p => ?_
      simp
    | true =>
      obtain ⟨control, hc, h⟩ := bind_eq_ok.mp h
      cases control with
      | none =>
        refine (finds_handle h).congr fun part p => ?_
        simp [hc]
      | some c =>
        refine (Finds.look h fun found later => finds_handle later).congr fun part p => ?_
        simp [hc]
  refine parts.congr fun part p => ⟨?_, ?_⟩
  · rintro (_ | ⟨shown, hc⟩ | hg)
    · exact .inl ⟨rfl, rfl⟩
    · exact .inr (.inl ⟨_, ⟨shown, hc⟩, rfl, rfl⟩)
    · exact .inr (.inr ⟨rfl, hg⟩)
  · rintro (⟨rfl, rfl⟩ | ⟨c, ⟨shown, hc⟩, rfl, rfl⟩ | ⟨rfl, hg⟩)
    · exact .point
    · exact .control shown hc
    · exact .heading hg

theorem finds_pickWaypoint {index : Nat} {ws : List (Waypoint ν)} {found : Option Hit}
    (h : pickWaypoint showControl mouse radius before index ws = .ok found) :
    Finds mouse radius (ShowsFrom showControl before index ws) found := by
  induction ws generalizing before index found with
  | nil =>
    cases h
    exact finds_nothing
  | cons w rest ih =>
    cases w with
    | action a => exact Finds.look h fun _ later => ih later
    | move m =>
      exact Finds.orElse (fun part => ⟨part, some index⟩) h (fun _ => rfl)
        (fun _ early => finds_pickMove early) fun _ later => ih later

end Moves

/-! ## The parts of a path -/

/-- The parts of waypoints are the actions and the parts of the legs. -/
theorem showsFrom_iff (showControl : Bool) (before : Pose ν) (index : Nat) (ws : List (Waypoint ν))
    (hit : Hit) (pixel : Point ν) :
    ShowsFrom showControl before index ws hit pixel ↔
      (∃ i a, ws[i]? = some (.action a) ∧ hit = ⟨.action, some (index + i)⟩ ∧
        pixel = toPixels a.pose.point) ∨
      ∃ leg ∈ Layout.legsFrom before index ws, ∃ part, hit = ⟨part, some leg.index⟩ ∧
        ShowsPart showControl leg.before leg.move part pixel := by
  induction ws generalizing before index with
  | nil => simp [ShowsFrom, Layout.legsFrom]
  | cons w rest ih =>
    have further (i : Nat) : index + 1 + i = index + (i + 1) := by omega
    cases w with
    | action a =>
      rw [ShowsFrom, ih, Layout.legsFrom]
      constructor
      · rintro (⟨rfl, rfl⟩ | ⟨i, a', there, rfl, rfl⟩ | leg)
        · exact .inl ⟨0, a, rfl, rfl, rfl⟩
        · exact .inl ⟨i + 1, a', there, by rw [further], rfl⟩
        · exact .inr leg
      · rintro (⟨i, a', there, rfl, rfl⟩ | leg)
        · cases i with
          | zero =>
            cases there
            exact .inl ⟨rfl, rfl⟩
          | succ i => exact .inr (.inl ⟨i, a', there, by rw [further], rfl⟩)
        · exact .inr (.inr leg)
    | move m =>
      rw [ShowsFrom, ih, Layout.legsFrom]
      constructor
      · rintro (⟨part, rfl, shown⟩ | ⟨i, a, there, rfl, rfl⟩ | ⟨leg, hl, shown⟩)
        · exact .inr ⟨_, List.mem_cons_self, part, rfl, shown⟩
        · exact .inl ⟨i + 1, a, there, by rw [further], rfl⟩
        · exact .inr ⟨leg, List.mem_cons_of_mem _ hl, shown⟩
      · rintro (⟨i, a, there, rfl, rfl⟩ | ⟨leg, hl, part, rfl, shown⟩)
        · cases i with
          | zero => cases there
          | succ i => exact .inr (.inl ⟨i, a, there, by rw [further], rfl⟩)
        · obtain rfl | later := List.mem_cons.mp hl
          · exact .inl ⟨part, rfl, shown⟩
          · exact .inr (.inr ⟨leg, later, part, rfl, shown⟩)

/-- Only an arc has a control point. -/
theorem kind_of_controlOf {motion : Motion ν} {p q c : Point ν}
    (h : Layout.controlOf motion p q = .ok (some c)) : motion.kind = .arc := by
  cases motion with
  | drive | strafe => cases h
  | arc own => rfl

/-- The parts of a path are the start, the parts of its waypoints and the handle of the start. -/
theorem shows_iff (mode : Mode) (l : Layout ν) (hit : Hit) (pixel : Point ν) :
    Shows mode l hit pixel ↔ hit = ⟨.start, none⟩ ∧ pixel = toPixels l.start.point ∨
      ShowsFrom mode.isRobot l.start 0 l.waypoints hit pixel ∨
      hit = ⟨.startHeading, none⟩ ∧ handle l.start = .ok pixel := by
  rw [showsFrom_iff]
  constructor
  · rintro (_ | hg | there | there | ⟨there, hg⟩ | ⟨there, bends, robot, hc⟩)
    · exact .inl ⟨rfl, rfl⟩
    · exact .inr (.inr ⟨rfl, hg⟩)
    · exact .inr (.inl (.inl ⟨_, _, there, by rw [Nat.zero_add], rfl⟩))
    · obtain ⟨leg, hl, place, rfl⟩ := Layout.exists_mem_legsFrom there l.start 0
      rw [Nat.zero_add] at place
      exact .inr (.inl (.inr ⟨leg, hl, .waypoint, by rw [place], .point⟩))
    · obtain ⟨leg, hl, place, rfl⟩ := Layout.exists_mem_legsFrom there l.start 0
      rw [Nat.zero_add] at place
      exact .inr (.inl (.inr ⟨leg, hl, .heading, by rw [place], .heading hg⟩))
    · obtain ⟨leg, hl, place, rfl⟩ := Layout.exists_mem_legsFrom there l.start 0
      rw [Nat.zero_add] at place
      rw [← place, Layout.arcControl_of_mem_legs hl] at hc
      exact .inr (.inl (.inr ⟨leg, hl, .control, by rw [place], .control robot hc⟩))
  · rintro (⟨rfl, rfl⟩ | (⟨i, a, there, rfl, rfl⟩ | ⟨leg, hl, part, rfl, shown⟩) | ⟨rfl, hg⟩)
    · exact .start
    · rw [Nat.zero_add]
      exact .action there
    · obtain ⟨there, -⟩ := Layout.place_of_mem_legs hl
      obtain _ | ⟨robot, hc⟩ | hg := shown
      · exact .waypoint there
      · exact .control there (kind_of_controlOf hc) robot ((Layout.arcControl_of_mem_legs hl).trans hc)
      · exact .heading there hg
    · exact .startHeading hg

/-- What a click finds is a part of the path that is seen within the radius; when it finds nothing,
there is none. -/
theorem finds_pick {mode : Mode} {l : Layout ν} {mouse : Point ν} {radius : ν} {found : Option Hit}
    (h : pick mode l mouse radius = .ok found) : Finds mouse radius (Shows mode l) found := by
  refine Finds.congr (Finds.look h fun found h => ?_) (shows_iff mode l)
  refine (Finds.orElse id h (fun _ => rfl) (fun _ early => finds_pickWaypoint early)
    fun _ later => finds_handle later).congr fun b p => ?_
  simp

/-! ## Over the real numbers -/

/-- With exact numbers a pixel is within the radius if its distance is below it. -/
theorem within_iff {mouse pixel : Point ℝ} {radius : ℝ} (nonnegative : 0 ≤ radius) :
    Within mouse radius pixel ↔ Point.distance mouse pixel < radius := by
  have square : squaredDistance pixel mouse =
      .ok ((pixel.x - mouse.x) ^ 2 + (pixel.y - mouse.y) ^ 2) := by
    rw [sq, sq]
    rfl
  rw [Within, square, Exact.distance_eq, Real.sqrt_lt (by positivity) nonnegative, sq radius]
  constructor
  · rintro ⟨_, ⟨⟩, below⟩
    exact of_decide_eq_true below
  · intro below
    exact ⟨_, rfl, decide_eq_true below⟩

section Exact

variable {α : Type} {mouse : Point ℝ} {radius : ℝ}

/-- Looking at a pixel is not refused. -/
theorem exists_look {yes no : Outcome (Option α)} (hyes : ∃ b, yes = .ok b) (hno : ∃ b, no = .ok b)
    (pixel : Point ℝ) :
    ∃ b, (near mouse radius pixel >>= fun hit => if hit = true then yes else no) = .ok b := by
  obtain ⟨hit, seen⟩ : ∃ hit, near mouse radius pixel = .ok hit := ⟨_, rfl⟩
  rw [seen, ok_bind]
  cases hit with
  | true => exact hyes
  | false => exact hno

theorem exists_look_handle (a : α) (pose : Pose ℝ) :
    ∃ b, (handle pose >>= fun grip => near mouse radius grip >>= fun hit =>
      if hit = true then pure (some a) else pure none) = .ok b := by
  obtain ⟨grip, hg⟩ : ∃ grip, handle pose = .ok grip := ⟨_, rfl⟩
  rw [hg, ok_bind]
  exact exists_look ⟨_, rfl⟩ ⟨_, rfl⟩ grip

theorem exists_pickMove (showControl : Bool) (before : Pose ℝ) (m : Move ℝ) (mouse : Point ℝ)
    (radius : ℝ) : ∃ found, pickMove showControl before m mouse radius = .ok found := by
  refine exists_look ⟨_, rfl⟩ ?_ _
  cases showControl with
  | false => exact exists_look_handle _ _
  | true =>
    obtain ⟨control, hc⟩ := Simulation.exists_controlOf_exact m.motion before.point m.point
    rw [if_pos rfl, hc]
    cases control with
    | none => exact exists_look_handle _ _
    | some c => exact exists_look ⟨_, rfl⟩ (exists_look_handle _ _) _

theorem exists_pickWaypoint (showControl : Bool) (mouse : Point ℝ) (radius : ℝ) (before : Pose ℝ)
    (index : Nat) (ws : List (Waypoint ℝ)) :
    ∃ found, pickWaypoint showControl mouse radius before index ws = .ok found := by
  induction ws generalizing before index with
  | nil => exact ⟨none, rfl⟩
  | cons w rest ih =>
    cases w with
    | action a => exact exists_look ⟨_, rfl⟩ (ih before (index + 1)) _
    | move m =>
      obtain ⟨part, hp⟩ := exists_pickMove showControl before m mouse radius
      rw [pickWaypoint, hp, ok_bind]
      cases part with
      | some part => exact ⟨_, rfl⟩
      | none => exact ih m.pose (index + 1)

/-- With exact numbers a click always answers. -/
theorem exists_pick (mode : Mode) (l : Layout ℝ) (mouse : Point ℝ) (radius : ℝ) :
    ∃ found, pick mode l mouse radius = .ok found := by
  refine exists_look ⟨_, rfl⟩ ?_ _
  obtain ⟨hit, hw⟩ := exists_pickWaypoint mode.isRobot mouse radius l.start 0 l.waypoints
  rw [hw, ok_bind]
  cases hit with
  | some hit => exact ⟨_, rfl⟩
  | none => exact exists_look_handle _ _

end Exact

end PathStudio.Window
