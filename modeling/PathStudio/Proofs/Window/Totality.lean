import PathStudio.Proofs.Change
import PathStudio.Proofs.Geometry.Magnitude
import PathStudio.Window.Drawing
import PathStudio.Window.Picking

/-!
# Pictures and clicks of bounded paths

A path whose numbers are bounded is drawn to the end, and a click on it is answered.
-/

namespace PathStudio.Window

open Double Change

variable {N : Nat} {trig : Trigonometry}

/-! ## Pixels -/

section Pixels

variable {p mouse pixel : Point Float} {pose : Pose Float} {radius : Float}

/-- Half the side of the field is bounded. -/
theorem bounded_halfSide :
    Double.Bounded 2 (Double.ofDecimal false 36576 (-4) / Double.ofInt 2) := by decide +kernel

theorem bounded_toPixels (trig : Trigonometry) (h : p.Bounded N) (some : 2 ≤ N) (small : N ≤ 800) :
    letI := trig.scalar
    (toPixels p).Bounded (N + 13) := by
  have scale : Double.Bounded 8 (Double.ofInt 720 / Double.ofDecimal false 36576 (-4)) := by
    decide +kernel
  have height : Double.Bounded 10 (Double.ofInt 720) := Double.bounded_ofInt (by decide) (by decide)
  have x := ((h.x.add bounded_halfSide (by omega)).mul scale (by omega)).mono (by omega : _ ≤ N + 11)
  have y := ((h.y.add bounded_halfSide (by omega)).mul scale (by omega)).mono (by omega : _ ≤ N + 11)
  exact ⟨x.mono (by omega), (height.sub y (by omega)).mono (by omega)⟩

theorem exists_handle (circular : trig.Circular) (h : pose.Bounded N) (some : 2 ≤ N)
    (small : N ≤ 800) :
    letI := trig.scalar
    ∃ grip, handle pose = .ok grip ∧ grip.Bounded (N + 15) := by
  let := trig.scalar
  have radius : Double.Bounded 5 (Double.ofInt 18) := Double.bounded_ofInt (by decide) (by decide)
  have centre := bounded_toPixels trig h.point some small
  obtain ⟨c, cosine, hc⟩ := exists_cos circular h.h
  obtain ⟨s, sine, hs⟩ := exists_sin circular h.h
  refine ⟨_, bind_eq_ok.mpr ⟨c, cosine, bind_eq_ok.mpr ⟨s, sine, rfl⟩⟩, ?_, ?_⟩
  · exact (centre.x.add (hc.mul radius (by decide)) (by omega)).mono (by omega)
  · exact (centre.y.add (hs.mul radius (by decide)) (by omega)).mono (by omega)

theorem bounded_headingAt (lawful : trig.Lawful) (hp : p.Bounded N) (hmouse : mouse.Bounded N)
    (some : 2 ≤ N) (small : N ≤ 800) :
    letI := trig.scalar
    Double.Bounded 2 (headingAt p mouse) := by
  have centre := bounded_toPixels trig hp some small
  exact bounded_atan2 lawful (hmouse.y.sub centre.y (by omega)) (hmouse.x.sub centre.x (by omega))

theorem bounded_toMetres (trig : Trigonometry) (h : mouse.Bounded 10) :
    letI := trig.scalar
    (toMetres mouse).Bounded 16 := by
  have scale : Apart 0 (Double.ofInt 720 / Double.ofDecimal false 36576 (-4)) := by decide +kernel
  have height : Double.Bounded 10 (Double.ofInt 720) := Double.bounded_ofInt (by decide) (by decide)
  exact ⟨((h.x.div scale (by decide)).sub bounded_halfSide (by decide)).mono (by decide),
    (((height.sub h.y (by decide)).div scale (by decide)).sub bounded_halfSide (by decide)).mono
      (by decide)⟩

/-- Between bounded pixels the distance can be told. -/
theorem exists_near (trig : Trigonometry) (radius : Float) (hmouse : mouse.Bounded N)
    (hpixel : pixel.Bounded N) (small : N ≤ 400) :
    letI := trig.scalar
    ∃ b, near mouse radius pixel = .ok b := by
  have x := (hpixel.x.sub hmouse.x (by omega)).square (by omega)
  have y := (hpixel.y.sub hmouse.y (by omega)).square (by omega)
  exact ⟨_, bind_eq_ok.mpr ⟨_, bind_eq_ok.mpr ⟨_, x, bind_eq_ok.mpr ⟨_, y, rfl⟩⟩, rfl⟩⟩

end Pixels

/-! ## Clicks -/

section Clicks

variable {mouse : Point Float} {before : Pose Float} {m : Move Float} {ws : List (Waypoint Float)}
  {l : Layout Float}

theorem exists_pickMove_of_bounded (circular : trig.Circular) (showControl : Bool) (radius : Float)
    (hbefore : before.Bounded N) (hm : m.Bounded N) (hmouse : mouse.Bounded N) (some : 2 ≤ N)
    (small : N ≤ 300) :
    letI := trig.scalar
    ∃ part, pickMove showControl before m mouse radius = .ok part := by
  let := trig.scalar
  have there : mouse.Bounded (N + 22) := hmouse.mono (by omega)
  have seen {p : Point Float} (hp : p.Bounded (N + 9)) :
      ∃ b, near mouse radius (toPixels p) = .ok b :=
    exists_near trig radius there (bounded_toPixels trig hp (by omega) (by omega)) (by omega)
  obtain ⟨atPoint, nearPoint⟩ := seen (p := m.point) (hm.pose.point.mono (by omega))
  obtain ⟨grip, handled, hgrip⟩ := exists_handle circular hm.pose some (by omega)
  obtain ⟨atGrip, nearGrip⟩ :=
    exists_near trig radius there (hgrip.mono (by omega : _ ≤ N + 22)) (by omega)
  have handleOrNothing : ∃ part : Option Part, (do
      if ← near mouse radius (← handle m.pose) then return .some .heading
      return none : Outcome (Option Part)) = .ok part := by
    refine ⟨if atGrip then .some .heading else none, ?_⟩
    rw [handled, ok_bind, nearGrip, ok_bind]
    cases atGrip <;> rfl
  rw [pickMove, nearPoint, ok_bind]
  cases atPoint with
  | true => exact ⟨_, rfl⟩
  | false =>
    rw [if_neg Bool.false_ne_true]
    cases showControl with
    | false => exact handleOrNothing
    | true =>
      obtain ⟨control, found, hcontrol, -⟩ :=
        exists_controlOf circular hbefore.point hm.pose.point hm.control (by omega)
      dsimp only
      rw [if_pos rfl, show m.point = m.pose.point from rfl, found, ok_bind]
      cases control with
      | none => exact handleOrNothing
      | some c =>
        obtain ⟨atControl, nearControl⟩ := seen (hcontrol c rfl)
        dsimp only
        rw [nearControl, ok_bind]
        cases atControl with
        | true => exact ⟨_, rfl⟩
        | false => exact handleOrNothing

theorem exists_pickWaypoint_of_bounded (circular : trig.Circular) (showControl : Bool) (radius : Float)
    (hbefore : before.Bounded N) (bounded : ∀ w ∈ ws, w.Bounded N) (hmouse : mouse.Bounded N)
    (some : 2 ≤ N) (small : N ≤ 300) (index : Nat) :
    letI := trig.scalar
    ∃ hit, pickWaypoint showControl mouse radius before index ws = .ok hit := by
  let := trig.scalar
  induction ws generalizing before index with
  | nil => exact ⟨none, rfl⟩
  | cons w rest ih =>
    obtain ⟨first, others⟩ := List.forall_mem_cons.mp bounded
    cases w with
    | action a =>
      have point := bounded_toPixels trig (Pose.Bounded.point first) some (by omega)
      obtain ⟨b, hb⟩ := exists_near trig radius (hmouse.mono (by omega)) point (by omega)
      rw [pickWaypoint, hb, ok_bind]
      cases b with
      | true => exact ⟨_, rfl⟩
      | false => exact ih hbefore others (index + 1)
    | move m =>
      obtain ⟨part, picked⟩ :=
        exists_pickMove_of_bounded circular showControl radius hbefore first hmouse some small
      rw [pickWaypoint, picked, ok_bind]
      cases part with
      | some part => exact ⟨_, rfl⟩
      | none => exact ih first.pose others (index + 1)

/-- A click on a path with bounded numbers is answered. -/
theorem exists_pick_of_bounded (circular : trig.Circular) (mode : Mode) (radius : Float)
    (h : l.Bounded N) (hmouse : mouse.Bounded N) (some : 2 ≤ N) (small : N ≤ 300) :
    letI := trig.scalar
    ∃ hit, pick mode l mouse radius = .ok hit := by
  let := trig.scalar
  have there : mouse.Bounded (N + 15) := hmouse.mono (by omega)
  have point := (bounded_toPixels trig h.start.point some (by omega)).mono (by omega : _ ≤ N + 15)
  obtain ⟨atStart, nearStart⟩ := exists_near trig radius there point (by omega)
  obtain ⟨grip, handled, hgrip⟩ := exists_handle circular h.start some (by omega)
  obtain ⟨atGrip, nearGrip⟩ := exists_near trig radius there hgrip (by omega)
  obtain ⟨hit, picked⟩ := exists_pickWaypoint_of_bounded circular mode.isRobot radius h.start
    h.waypoints hmouse some small 0
  rw [pick, nearStart, ok_bind]
  cases atStart with
  | true => exact ⟨_, rfl⟩
  | false =>
    simp only [Bool.false_eq_true, if_false, picked, ok_bind]
    cases hit with
    | some hit => exact ⟨_, rfl⟩
    | none =>
      dsimp only
      rw [handled, ok_bind, nearGrip, ok_bind]
      cases atGrip with
      | true => exact ⟨_, rfl⟩
      | false => exact ⟨_, rfl⟩

end Clicks

/-! ## Pictures -/

/-- A drawing that comes to its end. -/
def Drawn {α : Type} (d : Drawing Float α) : Prop := Completes (fun _ => True) d fun _ _ => True

section Pictures

variable {α β : Type} {d : Drawing Float α} {f : α → Drawing Float β} {o : Outcome α}

theorem drawn_draw (s : Stroke Float) : Drawn (draw s) := completes_modify fun _ _ => trivial

theorem drawn_pure (a : α) : Drawn (pure a : Drawing Float α) := completes_pure fun _ _ => trivial

theorem Drawn.bind (first : Drawn d) (next : ∀ a, Drawn (f a)) : Drawn (d >>= f) :=
  Completes.bind first next

/-- A drawing that goes on with what has been computed. -/
theorem drawn_lift_bind {a : α} (h : o = .ok a) (next : Drawn (f a)) :
    Drawn ((liftM o : Drawing Float α) >>= f) := by
  subst h
  exact next

theorem drawn_ite {c : Prop} [Decidable c] {d e : Drawing Float α} (yes : Drawn d) (no : Drawn e) :
    Drawn (if c then d else e) :=
  completes_ite (fun _ => yes) fun _ => no

/-- A drawing with a part on demand. -/
theorem drawn_ite_bind {c : Prop} [Decidable c] {d : Drawing Float PUnit}
    {f : PUnit → Drawing Float β} (first : Drawn d) (next : ∀ a, Drawn (f a)) :
    Drawn (if c then d >>= f else f ⟨⟩) :=
  drawn_ite (first.bind next) (next ⟨⟩)

theorem drawn_forM {xs : List α} {f : α → Drawing Float Unit} (h : ∀ x ∈ xs, Drawn (f x)) :
    Drawn (xs.forM f) :=
  completes_forM h

theorem drawn_strokes (xs : List α) (stroke : α → Stroke Float) :
    Drawn (forIn xs PUnit.unit fun x _ => do
      draw (stroke x)
      pure (ForInStep.yield PUnit.unit)) :=
  completes_forIn fun x _ =>
    Completes.bind (drawn_draw (stroke x)) fun _ => completes_pure fun _ _ => ⟨rfl, trivial⟩

end Pictures

section Layouts

variable {before pose : Pose Float} {leg : Layout.Leg Float} {l : Layout Float} {p : Point Float}
  {heading : Float}

theorem drawn_grid (trig : Trigonometry) {surface : Extent} {spacing : Float} {stride : Int}
    (h : letI := trig.scalar; gridStride spacing = .ok stride) :
    letI := trig.scalar
    Drawn (drawGrid surface spacing) :=
  drawn_lift_bind h ((drawn_strokes _ _).bind fun _ => (drawn_strokes _ _).bind drawn_pure)

theorem drawn_handle (circular : trig.Circular) (line knob : Colour) (h : pose.Bounded N)
    (some : 2 ≤ N) (small : N ≤ 800) :
    letI := trig.scalar
    Drawn (drawHandle line knob pose) := by
  let := trig.scalar
  obtain ⟨grip, handled, -⟩ := exists_handle circular h some small
  exact drawn_lift_bind handled ((drawn_draw _).bind fun _ => drawn_draw _)

theorem drawn_leg (circular : trig.Circular) (showControl : Bool) (hbefore : leg.before.Bounded N)
    (hmove : leg.move.Bounded N) (small : N ≤ 800) :
    letI := trig.scalar
    Drawn (drawLeg showControl leg) := by
  let := trig.scalar
  rw [drawLeg]
  cases showControl with
  | false => exact drawn_draw _
  | true =>
    obtain ⟨control, found, -⟩ :=
      exists_controlOf circular hbefore.point hmove.pose.point hmove.control (by omega)
    refine drawn_lift_bind found ?_
    cases control with
    | none => exact drawn_draw _
    | some c => exact (drawn_draw _).bind fun _ => (drawn_draw _).bind fun _ => drawn_draw _

theorem drawn_waypoint (circular : trig.Circular) (showHandle : Bool) (l : Layout Float) (index : Nat)
    {w : Waypoint Float} (h : w.Bounded N) (some : 2 ≤ N) (small : N ≤ 800) :
    letI := trig.scalar
    Drawn (drawWaypoint showHandle l index w) := by
  let := trig.scalar
  cases w with
  | action a =>
    refine drawn_ite_bind (drawn_draw _) fun _ => (drawn_draw _).bind fun _ => ?_
    split
    · exact drawn_draw _
    · exact drawn_pure ()
  | move m =>
    exact drawn_ite_bind (drawn_draw _) fun _ => (drawn_draw _).bind fun _ =>
      drawn_ite (drawn_handle circular _ _ (Move.Bounded.pose h) some small) (drawn_pure ())

theorem drawn_waypoints (circular : trig.Circular) (showHandle : Bool) (l : Layout Float)
    {ws : List (Waypoint Float)} (bounded : ∀ w ∈ ws, w.Bounded N) (some : 2 ≤ N) (small : N ≤ 800)
    (index : Nat) :
    letI := trig.scalar
    Drawn (drawWaypoints showHandle l index ws) := by
  let := trig.scalar
  induction ws generalizing index with
  | nil => exact drawn_pure ()
  | cons w rest ih =>
    obtain ⟨first, others⟩ := List.forall_mem_cons.mp bounded
    exact (drawn_waypoint circular showHandle l index first some small).bind fun _ =>
      ih others (index + 1)

/-- A path with bounded numbers is drawn to the end. -/
theorem drawn_layout (circular : trig.Circular) (mode : Mode) (h : l.Bounded N) (some : 2 ≤ N)
    (small : N ≤ 800) :
    letI := trig.scalar
    Drawn (drawLayout mode l) := by
  let := trig.scalar
  refine (drawn_draw _).bind fun _ => (drawn_handle circular _ _ h.start some small).bind fun _ =>
    (drawn_forM fun leg hl => ?_).bind fun _ =>
      (drawn_waypoints circular _ _ h.waypoints some small _).bind fun _ =>
        drawn_forM fun m _ => drawn_draw _
  obtain ⟨hbefore, hmove⟩ := h.legs leg hl
  exact drawn_leg circular _ hbefore hmove small

theorem drawn_preview (trig : Trigonometry) (points : List (Point Float)) :
    letI := trig.scalar
    Drawn (drawPreview points) :=
  completes_ite (fun _ => drawn_draw _) fun _ => drawn_pure ()

theorem exists_truncate (trig : Trigonometry) {x : Float} (h : Double.Bounded N x) :
    letI := trig.scalar
    ∃ k, Scalar.truncate x = .ok k := by
  let := trig.scalar
  obtain ⟨up, hup, -⟩ := h.exists_ceil
  obtain ⟨down, hdown, -⟩ := h.exists_floor
  rw [Scalar.truncate]
  split
  · exact ⟨up, hup⟩
  · exact ⟨down, hdown⟩

theorem drawn_robot (circular : trig.Circular) (hp : p.Bounded N) (hheading : Double.Bounded N heading)
    (some : 2 ≤ N) (small : N ≤ 800) :
    letI := trig.scalar
    Drawn (drawRobot p heading) := by
  let := trig.scalar
  have unit : Double.Bounded 0 (Double.pi / Double.ofInt 180) := by decide
  have pixel := bounded_toPixels trig hp some small
  obtain ⟨x, hx⟩ := exists_truncate trig pixel.x
  obtain ⟨y, hy⟩ := exists_truncate trig pixel.y
  obtain ⟨c, cosine, -⟩ := exists_cos circular (hheading.mul unit (by omega))
  obtain ⟨s, sine, -⟩ := exists_sin circular (hheading.mul unit (by omega))
  exact drawn_lift_bind hx (drawn_lift_bind hy ((drawn_draw _).bind fun _ =>
    drawn_lift_bind cosine (drawn_lift_bind sine (drawn_draw _))))

theorem drawn_lines (lineHeight top : Int) (texts : List String) :
    Drawn (drawLines lineHeight top texts) := by
  induction texts generalizing top with
  | nil => exact drawn_pure ()
  | cons text rest ih => exact (drawn_draw _).bind fun _ => ih (top + lineHeight)

theorem drawn_status (trig : Trigonometry) (surface : Extent) (lineHeight : Int)
    (texts : List String) :
    letI := trig.scalar
    Drawn (drawStatus surface lineHeight texts) :=
  (drawn_draw _).bind fun _ => (drawn_draw _).bind fun _ => drawn_lines _ _ _

end Layouts

end PathStudio.Window
