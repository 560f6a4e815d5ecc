import PathStudio.Geometry.Polyline
import PathStudio.Proofs.Geometry.Polar
import Mathlib.Data.List.Chain

/-!
# Exact polylines

What rounding off a polyline and filling its gaps keep over the real numbers. Both
only ever add points between two others, so that a box around the polyline stays
one. Merging drops points next to kept ones, so that neighbours end up apart and
the end moves by no more than what counts as nothing; filling keeps every point
and leaves no long gap.
-/

namespace PathStudio.Polyline

open Exact

/-! ## Points between others -/

@[simp] theorem between_zero (p q : Point ℝ) : between p q 0 = p := by simp [between]

@[simp] theorem between_one (p q : Point ℝ) : between p q 1 = q := by simp [between]

/-- Parts of a line are as long as the fractions between which they lie. -/
theorem distance_between (p q : Point ℝ) (f g : ℝ) :
    Point.distance (between p q f) (between p q g) = |g - f| * Point.distance p q := by
  have square : (p.x + (q.x - p.x) * g - (p.x + (q.x - p.x) * f)) ^ 2 +
      (p.y + (q.y - p.y) * g - (p.y + (q.y - p.y) * f)) ^ 2 =
      (g - f) ^ 2 * ((q.x - p.x) ^ 2 + (q.y - p.y) ^ 2) := by ring
  rw [distance_eq, distance_eq, between, between, square, Real.sqrt_mul (sq_nonneg _),
    Real.sqrt_sq_eq_abs]

/-- Whether a point is in the box along the axes between two corners. -/
def InBox (low high p : Point ℝ) : Prop :=
  (low.x ≤ p.x ∧ p.x ≤ high.x) ∧ low.y ≤ p.y ∧ p.y ≤ high.y

theorem inBox_between {low high p q : Point ℝ} (hp : InBox low high p) (hq : InBox low high q)
    {f : ℝ} (lower : 0 ≤ f) (upper : f ≤ 1) : InBox low high (between p q f) := by
  have mean {least most a b : ℝ} (ha : least ≤ a ∧ a ≤ most) (hb : least ≤ b ∧ b ≤ most) :
      least ≤ a + (b - a) * f ∧ a + (b - a) * f ≤ most := by
    have rest : 0 ≤ 1 - f := by linarith
    constructor <;> nlinarith
  exact ⟨mean hp.1 hq.1, mean hp.2 hq.2⟩

/-! ## Cutting corners -/

theorem quarterPoints_eq (p q : Point ℝ) :
    quarterPoints p q = [between p q (1 / 4), between p q (3 / 4)] := by
  have quarter : (Scalar.ofDecimal false 25 (-2) : ℝ) = 1 / 4 := by
    show (1 : ℝ) * ((25 : Nat) * 10 ^ (-2 : Int)) = _
    norm_num
  have rest : (Scalar.ofDecimal false 75 (-2) : ℝ) = 3 / 4 := by
    show (1 : ℝ) * ((75 : Nat) * 10 ^ (-2 : Int)) = _
    norm_num
  show [(⟨Scalar.ofDecimal false 75 (-2) * p.x + Scalar.ofDecimal false 25 (-2) * q.x,
      Scalar.ofDecimal false 75 (-2) * p.y + Scalar.ofDecimal false 25 (-2) * q.y⟩ : Point ℝ),
    ⟨Scalar.ofDecimal false 25 (-2) * p.x + Scalar.ofDecimal false 75 (-2) * q.x,
      Scalar.ofDecimal false 25 (-2) * p.y + Scalar.ofDecimal false 75 (-2) * q.y⟩] = _
  have mean (a b : ℝ) : 3 / 4 * a + 1 / 4 * b = a + (b - a) * (1 / 4) ∧
      1 / 4 * a + 3 / 4 * b = a + (b - a) * (3 / 4) := by
    constructor <;> ring
  rw [quarter, rest, (mean p.x q.x).1, (mean p.x q.x).2, (mean p.y q.y).1, (mean p.y q.y).2]
  rfl

theorem inBox_cutAfter {low high p : Point ℝ} {rest : List (Point ℝ)} (hp : InBox low high p)
    (hrest : ∀ q ∈ rest, InBox low high q) : ∀ m ∈ cutAfter p rest, InBox low high m := by
  induction rest generalizing p with
  | nil =>
    intro m hm
    rwa [List.mem_singleton.mp hm]
  | cons q rest ih =>
    obtain ⟨hq, hrest⟩ := List.forall_mem_cons.mp hrest
    rw [cutAfter, quarterPoints_eq, List.forall_mem_append]
    refine ⟨?_, ih hq hrest⟩
    simp only [List.forall_mem_cons, List.not_mem_nil, false_implies, implies_true, and_true]
    exact ⟨inBox_between hp hq (by norm_num) (by norm_num),
      inBox_between hp hq (by norm_num) (by norm_num)⟩

section Lists

variable {ν : Type} [Add ν] [Sub ν] [Mul ν] [Div ν] [Neg ν] [Scalar ν]

theorem getLast?_cutAfter (p : Point ν) (rest : List (Point ν)) :
    (cutAfter p rest).getLast? = (p :: rest).getLast? := by
  induction rest generalizing p with
  | nil => rfl
  | cons q rest ih =>
    rw [cutAfter, List.getLast?_append, ih, List.getLast?_cons_cons]
    cases h : (q :: rest).getLast? with
    | none => cases List.getLast?_eq_none_iff.mp h
    | some last => rfl

theorem collapseAfter_sublist (last : Point ν) (rest : List (Point ν)) :
    (collapseAfter last rest).Sublist rest := by
  induction rest generalizing last with
  | nil => exact .slnil
  | cons p rest ih =>
    rw [collapseAfter]
    split
    · exact (ih last).cons p
    · exact (ih p).cons_cons p

/-- One round of cutting corners and merging points. -/
def roundOff (points : List (Point ν)) : List (Point ν) := collapse (cutCorners points)

theorem roundOff_cons (p : Point ν) (rest : List (Point ν)) :
    roundOff (p :: rest) = p :: collapseAfter p (cutAfter p rest) := rfl

theorem smooth_eq (p q : Point ν) (rest : List (Point ν)) :
    smooth (p :: q :: rest) = roundOff (roundOff (p :: q :: rest)) := rfl

theorem head?_refine {gap spacing : ν} {points out : List (Point ν)}
    (h : refine gap spacing points = .ok out) : out.head? = points.head? := by
  cases points with
  | nil =>
    cases h
    rfl
  | cons p rest =>
    cases rest with
    | nil =>
      cases h
      rfl
    | cons q rest =>
      obtain ⟨filling, -, h⟩ := bind_eq_ok.mp h
      obtain ⟨more, -, h⟩ := bind_eq_ok.mp h
      obtain rfl := return_eq_ok.mp h
      rfl

/-- A polyline that is smoothed begins where it did, unless nothing is left of it. -/
theorem head?_smooth {points : List (Point ν)} (some : smooth points ≠ []) :
    (smooth points).head? = points.head? := by
  match points with
  | [] | [_] => exact absurd rfl some
  | p :: q :: rest => rfl

end Lists

/-! ## Merging points -/

/-- Lengths that count as something. -/
theorem lt_distance_of_not_near {p q : Point ℝ}
    (h : ¬ Scalar.le (Point.distance p q) negligible = true) : 1 / 10 ^ 6 < Point.distance p q := by
  rw [← negligible_eq]
  exact not_le.mp (of_decide_eq_false (Bool.eq_false_iff.mpr h))

theorem isChain_collapseAfter (last : Point ℝ) (rest : List (Point ℝ)) :
    (last :: collapseAfter last rest).IsChain fun p q => 1 / 10 ^ 6 < Point.distance p q := by
  induction rest generalizing last with
  | nil => exact List.isChain_singleton last
  | cons p rest ih =>
    rw [collapseAfter]
    split
    next => exact ih last
    next far => exact List.isChain_cons_cons.mpr ⟨lt_distance_of_not_near far, ih p⟩

/-- The end of a polyline with its points merged is near to the end that it had. -/
theorem exists_getLast?_collapseAfter (last : Point ℝ) (rest : List (Point ℝ)) :
    ∃ e, (last :: collapseAfter last rest).getLast? = some e ∧
      ∀ q, (last :: rest).getLast? = some q → Point.distance e q ≤ 1 / 10 ^ 6 := by
  induction rest generalizing last with
  | nil =>
    refine ⟨last, rfl, fun q hq => ?_⟩
    obtain rfl : last = q := Option.some.inj hq
    rw [distance_self]
    positivity
  | cons p rest ih =>
    rw [collapseAfter]
    split
    next near =>
      -- the end is `p` itself, or else it is the end of what follows
      obtain ⟨e, he, close⟩ := ih last
      cases rest with
      | nil =>
        refine ⟨last, rfl, fun q hq => ?_⟩
        obtain rfl : p = q := Option.some.inj hq
        rw [← negligible_eq]
        exact of_decide_eq_true near
      | cons q rest => exact ⟨e, he, close⟩
    next => exact ih p

/-! ## Rounding off -/

theorem inBox_roundOff {low high : Point ℝ} {points : List (Point ℝ)}
    (h : ∀ q ∈ points, InBox low high q) : ∀ q ∈ roundOff points, InBox low high q := by
  cases points with
  | nil => exact h
  | cons p rest =>
    obtain ⟨hp, hrest⟩ := List.forall_mem_cons.mp h
    rw [roundOff_cons, List.forall_mem_cons]
    exact ⟨hp, fun q hq => inBox_cutAfter hp hrest q ((collapseAfter_sublist _ _).subset hq)⟩

theorem exists_getLast?_roundOff {points : List (Point ℝ)} {q : Point ℝ}
    (h : points.getLast? = some q) :
    ∃ e, (roundOff points).getLast? = some e ∧ Point.distance e q ≤ 1 / 10 ^ 6 := by
  cases points with
  | nil => cases h
  | cons p rest =>
    obtain ⟨e, he, close⟩ := exists_getLast?_collapseAfter p (cutAfter p rest)
    refine ⟨e, he, close q ?_⟩
    rw [List.getLast?_cons, getLast?_cutAfter, h]
    rfl

/-! ## Filling gaps -/

/-- Neighbours that are neither at the same place nor far from each other. -/
def Spaced (p q : Point ℝ) : Prop := 1e-6 < Point.distance p q ∧ Point.distance p q ≤ 0.5

theorem spaced_iff {p q : Point ℝ} :
    Spaced p q ↔ 1 / 10 ^ 6 < Point.distance p q ∧ Point.distance p q ≤ 1 / 2 := by
  norm_num [Spaced]

/-- The number of parts that a long gap is divided into. -/
noncomputable def partsOf (p q : Point ℝ) : Nat := ⌈5 * Point.distance p q⌉.toNat

/-- The point at the end of some of the parts of a gap. -/
noncomputable def mark (p q : Point ℝ) (k : Nat) : Point ℝ := between p q (k / partsOf p q)

theorem fill_eq (p q : Point ℝ) : fill defaultGap defaultSpacing p q =
    .ok (if 1 / 2 < Point.distance p q then (List.range' 1 (partsOf p q - 1)).map (mark p q)
      else []) := by
  have gap : (defaultGap : ℝ) = 1 / 2 := by
    show (1 : ℝ) * ((5 : Nat) * 10 ^ (-1 : Int)) = _
    norm_num
  have spacing : (defaultSpacing : ℝ) = 1 / 5 := by
    show (1 : ℝ) * ((2 : Nat) * 10 ^ (-1 : Int)) = _
    norm_num
  have divisor : ¬ Scalar.eq (defaultSpacing : ℝ) (Scalar.ofInt 0) = true := by
    rw [spacing]
    intro zero
    have zero : (1 / 5 : ℝ) = ((0 : Int) : ℝ) := of_decide_eq_true zero
    norm_num at zero
  have parts : Scalar.divide (Point.distance p q) (defaultSpacing : ℝ) =
      .ok (5 * Point.distance p q) := by
    refine (if_neg divisor).trans (congrArg Except.ok ?_)
    rw [spacing]
    ring
  rw [fill]
  by_cases long : 1 / 2 < Point.distance p q
  · have cut : Scalar.lt (defaultGap : ℝ) (Point.distance p q) = true :=
      decide_eq_true (gap ▸ long)
    have whole : ((⌈5 * Point.distance p q⌉ : Int) : ℝ) = (partsOf p q : ℝ) := by
      have positive : 0 ≤ ⌈5 * Point.distance p q⌉ := Int.ceil_nonneg (by linarith)
      exact_mod_cast (Int.toNat_of_nonneg positive).symm
    rw [if_pos long, if_pos cut, parts, ok_bind]
    refine congrArg Except.ok (List.map_congr_left fun k _ => ?_)
    show between p q (((k : Int) : ℝ) / ((⌈5 * Point.distance p q⌉ : Int) : ℝ)) = _
    rw [whole, Int.cast_natCast, mark]
  · have left : ¬ Scalar.lt (defaultGap : ℝ) (Point.distance p q) = true :=
      fun cut => long (gap ▸ of_decide_eq_true cut)
    rw [if_neg long]
    exact if_neg left

/-- The parts of a long gap are a little shorter than the spacing. -/
theorem spaced_mark {p q : Point ℝ} (long : 1 / 2 < Point.distance p q) (k : Nat) :
    Spaced (mark p q k) (mark p q (k + 1)) := by
  have nonnegative : 0 ≤ ⌈5 * Point.distance p q⌉ := Int.ceil_nonneg (by linarith)
  have whole : (partsOf p q : ℝ) = ((⌈5 * Point.distance p q⌉ : Int) : ℝ) := by
    exact_mod_cast Int.toNat_of_nonneg nonnegative
  have enough := Int.le_ceil (5 * Point.distance p q)
  have few := Int.ceil_lt_add_one (5 * Point.distance p q)
  rw [← whole] at enough few
  have positive : (0 : ℝ) < partsOf p q := by linarith
  have part : |((k + 1 : Nat) : ℝ) / partsOf p q - k / partsOf p q| = 1 / partsOf p q := by
    rw [← sub_div, Nat.cast_add_one, add_sub_cancel_left, abs_of_pos (by positivity)]
  rw [spaced_iff, mark, mark, distance_between, part, one_div_mul_eq_div, lt_div_iff₀ positive,
    div_le_iff₀ positive]
  constructor <;> linarith

/-- A gap with the points that fill it goes from one end to the other in even parts. -/
theorem marks_eq {p q : Point ℝ} (long : 1 / 2 < Point.distance p q) :
    p :: ((List.range' 1 (partsOf p q - 1)).map (mark p q) ++ [q]) =
      (List.range (partsOf p q + 1)).map (mark p q) := by
  have some : 0 < partsOf p q := by
    rw [partsOf, Int.lt_toNat]
    exact Int.lt_ceil.mpr (by push_cast; linarith)
  have first : mark p q 0 = p := by
    rw [mark, Nat.cast_zero, zero_div, between_zero]
  have last : mark p q (partsOf p q) = q := by
    rw [mark, div_self (by exact_mod_cast some.ne'), between_one]
  obtain ⟨n, hn⟩ := Nat.exists_eq_succ_of_ne_zero some.ne'
  rw [hn] at last ⊢
  rw [List.range_eq_range', List.range'_succ, List.range'_1_concat, List.map_cons, List.map_append,
    first, List.map_singleton, Nat.zero_add, Nat.add_comm 1 n, Nat.succ_sub_one]
  exact congrArg (fun e => p :: ((List.range' 1 n).map (mark p q) ++ [e])) last.symm

theorem exists_fill (p q : Point ℝ) :
    ∃ filling, fill defaultGap defaultSpacing p q = .ok filling ∧
      (∀ low high, InBox low high p → InBox low high q → ∀ m ∈ filling, InBox low high m) ∧
      (1 / 10 ^ 6 < Point.distance p q → (p :: (filling ++ [q])).IsChain Spaced) := by
  refine ⟨_, fill_eq p q, ?_⟩
  by_cases long : 1 / 2 < Point.distance p q
  · rw [if_pos long]
    refine ⟨fun low high hp hq m hm => ?_, fun _ => ?_⟩
    · obtain ⟨k, hk, rfl⟩ := List.mem_map.mp hm
      have before : k ≤ partsOf p q := by
        have := List.mem_range'_1.mp hk
        omega
      exact inBox_between hp hq (by positivity)
        (div_le_one_of_le₀ (by exact_mod_cast before) (Nat.cast_nonneg _))
    · rw [marks_eq long, List.isChain_map]
      exact (List.isChain_range_succ _ _).mpr fun k _ => spaced_mark long k
  · rw [if_neg long]
    refine ⟨fun _ _ _ _ _ => by simp, fun apart => ?_⟩
    exact List.isChain_pair.mpr (spaced_iff.mpr ⟨apart, not_lt.mp long⟩)

/-- What filling the gaps of a polyline keeps, and what it leaves. -/
structure Fills (points out : List (Point ℝ)) : Prop where
  sublist : points.Sublist out
  head : out.head? = points.head?
  last : out.getLast? = points.getLast?
  inBox : ∀ low high, (∀ q ∈ points, InBox low high q) → ∀ q ∈ out, InBox low high q
  spaced : (points.IsChain fun p q => 1 / 10 ^ 6 < Point.distance p q) → out.IsChain Spaced

theorem exists_refine (points : List (Point ℝ)) :
    ∃ out, refine defaultGap defaultSpacing points = .ok out ∧ Fills points out := by
  induction points using refine.induct with
  | case1 => exact ⟨[], rfl, .refl [], rfl, rfl, fun _ _ h => h, fun _ => List.isChain_nil⟩
  | case2 p => exact ⟨[p], rfl, .refl [p], rfl, rfl, fun _ _ h => h, fun _ => List.isChain_singleton p⟩
  | case3 p q rest ih =>
    obtain ⟨filling, filled, between, even⟩ := exists_fill p q
    obtain ⟨more, refined, fills⟩ := ih
    -- what follows the filling begins with `q`
    obtain ⟨later, rfl⟩ := List.head?_eq_some_iff.mp fills.head
    refine ⟨p :: (filling ++ q :: later), ?_, ?_⟩
    · rw [refine, filled, ok_bind, refined]
      rfl
    · constructor
      · exact (fills.sublist.trans (List.sublist_append_right filling _)).cons_cons p
      · rfl
      · rw [List.getLast?_cons_cons, ← fills.last, ← List.cons_append, List.getLast?_append_cons]
      · intro low high inside
        obtain ⟨hp, hrest⟩ := List.forall_mem_cons.mp inside
        rw [List.forall_mem_cons, List.forall_mem_append]
        exact ⟨hp, between low high hp (hrest q (by simp)), fills.inBox low high hrest⟩
      · intro apart
        obtain ⟨first, rest⟩ := List.isChain_cons_cons.mp apart
        have front : (p :: filling ++ [q]).IsChain Spaced := even first
        have joined := front.append_overlap (fills.spaced rest) (List.cons_ne_nil q [])
        simpa using joined

/-! ## The line to follow -/

/-- A polyline of at least two points that is rounded off and then filled begins where it did, ends
nearly where it did, stays in every box, goes on in steps that are neither nothing nor long, and
has all the points that it had when it was only rounded off. -/
theorem exists_refine_smooth {points : List (Point ℝ)} {first last : Point ℝ}
    (begins : points.head? = some first) (ends : points.getLast? = some last)
    (some : 2 ≤ points.length) :
    ∃ out, refine defaultGap defaultSpacing (smooth points) = .ok out ∧ out.head? = .some first ∧
      (∃ e, out.getLast? = .some e ∧ Point.distance e last ≤ 2 / 10 ^ 6) ∧
      (∀ low high, (∀ q ∈ points, InBox low high q) → ∀ q ∈ out, InBox low high q) ∧
      out.IsChain Spaced ∧ (smooth points).Sublist out := by
  obtain ⟨p, q, rest, rfl⟩ : ∃ p q rest, points = p :: q :: rest := by
    match points, some with
    | p :: q :: rest, _ => exact ⟨p, q, rest, rfl⟩
  obtain rfl : p = first := Option.some.inj begins
  obtain ⟨m, hm, near⟩ := exists_getLast?_roundOff ends
  obtain ⟨e, he, near'⟩ := exists_getLast?_roundOff hm
  rw [smooth_eq]
  obtain ⟨out, refined, fills⟩ := exists_refine (roundOff (roundOff (p :: q :: rest)))
  refine ⟨out, refined, fills.head, ⟨e, fills.last.trans he, ?_⟩, fun low high inside => ?_, ?_,
    fills.sublist⟩
  · calc Point.distance e last ≤ Point.distance e m + Point.distance m last :=
          distance_triangle e m last
      _ ≤ 2 / 10 ^ 6 := by linarith
  · exact fills.inBox low high (inBox_roundOff (inBox_roundOff inside))
  · exact fills.spaced (isChain_collapseAfter _ _)

end PathStudio.Polyline
