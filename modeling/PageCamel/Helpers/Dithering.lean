import Mathlib.Algebra.Field.Rat
import Mathlib.Data.List.Induction
import Mathlib.Data.List.Nodup
import Mathlib.Logic.Function.Basic
import Mathlib.Algebra.Order.Ring.Rat
import Mathlib.Tactic.Common
import Mathlib.Tactic.NormNum

/-!
Dithering of greyscale pictures (`printAddGreyscaleImage` of `Helpers/PrintProcessor.pm`), over
exact numbers. The larger of the two matrices is laid one row too high, over pixels that have
been visited.
-/

namespace PageCamel.Helpers.Dithering

abbrev Place := Nat × Nat

abbrev Pixels := Place → ℚ

/-- A matrix, the bounds of the loops over it, where the current pixel lies and the divisor. -/
structure Dither where
  matrix : List (List Nat)
  columns : Nat
  rows : Nat
  offsetx : Nat
  offsety : Nat
  divisor : ℚ

def floydSteinberg : Dither where
  matrix := [[0, 0, 7], [3, 5, 1]]
  columns := 3
  rows := 2
  offsetx := 1
  offsety := 0
  divisor := 16

def minimizedAverageError : Dither where
  matrix := [[0, 0, 0, 7, 5], [3, 5, 7, 5, 3], [1, 3, 5, 3, 1]]
  columns := 5
  rows := 3
  offsetx := 2
  offsety := 1
  divisor := 48

/-- The settings 0 and 3 compare each pixel for itself, and diffuse nothing. -/
def ditherOf (imagesoftness : Nat) : Option Dither :=
  if imagesoftness = 2 then some floydSteinberg
  else if imagesoftness = 1 then some minimizedAverageError
  else none

def Dither.factor (d : Dither) (ditherx dithery : Nat) : Nat :=
  ((d.matrix[dithery]?).getD [])[ditherx]?.getD 0

structure Push where
  place : Place
  change : ℚ

structure Picture where
  destw : Nat
  desth : Nat
  pixels : Pixels

/-- The two inner loops: a matrix cell gives a change unless it is zero or out of the picture. -/
def Dither.pushes (d : Dither) (img : Picture) (place : Place) (quanterror : ℚ) : List Push :=
  (List.range d.columns).flatMap fun (ditherx : Nat) =>
  (List.range d.rows).filterMap fun (dithery : Nat) =>
    let deltax : Int := place.1 + ditherx - d.offsetx
    let deltay : Int := place.2 + dithery - d.offsety
    if d.factor ditherx dithery = 0 then none
    else if deltax < 0 ∨ img.destw ≤ deltax then none
    else if deltay < 0 ∨ img.desth ≤ deltay then none
    else some
      { place := (deltax.toNat, deltay.toNat)
        change := d.factor ditherx dithery * quanterror / d.divisor }

def newpixel (oldpixel : ℚ) : ℚ := if oldpixel < 128 then 0 else 255

def pushesAt (d : Dither) (img : Picture) (pixels : Pixels) (place : Place) : List Push :=
  d.pushes img place (pixels place - newpixel (pixels place))

def add (pixels : Pixels) (push : Push) : Pixels :=
  Function.update pixels push.place (pixels push.place + push.change)

/-- The body of the two outer loops. -/
def visit (d : Dither) (img : Picture) (pixels : Pixels) (place : Place) : Pixels :=
  (pushesAt d img pixels place).foldl add
    (Function.update pixels place (newpixel (pixels place)))

def Picture.scan (img : Picture) : List Place :=
  (List.range img.desth).flatMap fun y => (List.range img.destw).map fun x => (x, y)

def dither (d : Dither) (img : Picture) : Pixels := img.scan.foldl (visit d img) img.pixels

/-! ### What the pass is for -/

/-- A colour the printer has. -/
def Flat (pixel : ℚ) : Prop := pixel = 0 ∨ pixel = 255

/-- Error goes only to pixels that the scan has yet to come to. -/
def PushesForward (d : Dither) (img : Picture) : Prop :=
  ∀ done place rest, img.scan = done ++ place :: rest →
    ∀ push ∈ pushesAt d img (done.foldl (visit d img) img.pixels) place,
      push.change ≠ 0 → push.place ∈ rest

/-- The pass leaves no pixel between the colours. -/
def Flattens (d : Dither) (img : Picture) : Prop :=
  ∀ place ∈ img.scan, Flat (dither d img place)

/-! ### The scan -/

variable {d : Dither} {img : Picture} {place : Place} {pixels : Pixels}

/-- The order of the loops, rows first. -/
def Before (p q : Place) : Prop := p.2 < q.2 ∨ p.2 = q.2 ∧ p.1 < q.1

theorem mem_scan : place ∈ img.scan ↔ place.1 < img.destw ∧ place.2 < img.desth := by
  constructor
  · intro hMem
    obtain ⟨y, hy, hRow⟩ := List.mem_flatMap.mp hMem
    obtain ⟨x, hx, rfl⟩ := List.mem_map.mp hRow
    exact ⟨List.mem_range.mp hx, List.mem_range.mp hy⟩
  · rintro ⟨hx, hy⟩
    exact List.mem_flatMap.mpr ⟨place.2, List.mem_range.mpr hy, List.mem_map.mpr
      ⟨place.1, List.mem_range.mpr hx, rfl⟩⟩

theorem scan_before (img : Picture) : img.scan.Pairwise Before := by
  rw [Picture.scan, List.pairwise_flatMap]
  constructor
  · intro y _
    rw [List.pairwise_map]
    exact List.pairwise_lt_range.imp fun hLess => .inr ⟨rfl, hLess⟩
  · apply List.pairwise_lt_range.imp
    intro y y' hLess p hp q hq
    obtain ⟨x, -, rfl⟩ := List.mem_map.mp hp
    obtain ⟨x', -, rfl⟩ := List.mem_map.mp hq
    exact .inl hLess

theorem not_before_self (p : Place) : ¬ Before p p := by
  rintro (hLess | ⟨-, hLess⟩)
  · exact Nat.lt_irrefl _ hLess
  · exact Nat.lt_irrefl _ hLess

theorem scan_nodup (img : Picture) : img.scan.Nodup :=
  (scan_before img).imp fun {p q} hBefore hSame => by
    rw [hSame] at hBefore
    exact not_before_self q hBefore

theorem mem_rest {done rest : List Place} (hScan : img.scan = done ++ place :: rest) {q : Place}
    (hMem : q ∈ img.scan) (hBefore : Before place q) : q ∈ rest := by
  have hOrder := scan_before img
  rw [hScan, List.pairwise_append] at hOrder
  rw [hScan, List.mem_append, List.mem_cons] at hMem
  rcases hMem with hDone | rfl | hRest
  · have hAfter := hOrder.2.2 q hDone place List.mem_cons_self
    simp only [Before] at hBefore hAfter
    omega
  · exact absurd hBefore (not_before_self q)
  · exact hRest

/-! ### One visit -/

theorem foldl_add_of_not_mem {pushes : List Push} {q : Place}
    (hOther : ∀ push ∈ pushes, push.change ≠ 0 → push.place ≠ q) (pixels : Pixels) :
    pushes.foldl add pixels q = pixels q := by
  induction pushes generalizing pixels with
  | nil => rfl
  | cons push pushes ih =>
    rw [List.forall_mem_cons] at hOther
    rw [List.foldl_cons, ih hOther.2, add]
    by_cases hChange : push.change = 0
    · by_cases hPlace : push.place = q
      · rw [hPlace, Function.update_self, hChange, add_zero]
      · exact Function.update_of_ne (Ne.symm hPlace) _ _
    · exact Function.update_of_ne (Ne.symm (hOther.1 hChange)) _ _

theorem flat_newpixel (oldpixel : ℚ) : Flat (newpixel oldpixel) := by
  rw [newpixel]
  split
  · exact .inl rfl
  · exact .inr rfl

theorem newpixel_of_flat {oldpixel : ℚ} (hFlat : Flat oldpixel) : newpixel oldpixel = oldpixel := by
  rcases hFlat with rfl | rfl
  · norm_num [newpixel]
  · norm_num [newpixel]

theorem flat_of_error {oldpixel : ℚ} (hError : oldpixel - newpixel oldpixel = 0) : Flat oldpixel := by
  rw [sub_eq_zero.mp hError]
  exact flat_newpixel oldpixel

/-- What is not pushed to keeps its value, and the pixel itself gets its colour. -/
theorem visit_of_not_mem {q : Place}
    (hOther : ∀ push ∈ pushesAt d img pixels place, push.change ≠ 0 → push.place ≠ q) :
    visit d img pixels place q = if q = place then newpixel (pixels place) else pixels q := by
  rw [visit, foldl_add_of_not_mem hOther, Function.update_apply]

theorem flatten_run (hForward : PushesForward d img) {done rest : List Place}
    (hScan : img.scan = done ++ rest) :
    ∀ q ∈ done, Flat (done.foldl (visit d img) img.pixels q) := by
  induction done using List.reverseRecOn generalizing rest with
  | nil => exact fun q hq => absurd hq List.not_mem_nil
  | append_singleton done place ih =>
    rw [List.append_assoc, List.singleton_append] at hScan
    have hNodup := scan_nodup img
    rw [hScan, List.nodup_append] at hNodup
    obtain ⟨-, hRest, hDisjoint⟩ := hNodup
    intro q hq
    have hKept : ∀ push ∈ pushesAt d img (done.foldl (visit d img) img.pixels) place,
        push.change ≠ 0 → push.place ≠ q := by
      rintro push hPush hChange rfl
      have hLater := hForward done place rest hScan push hPush hChange
      rcases List.mem_append.mp hq with hDone | hOwn
      · exact hDisjoint _ hDone _ (List.mem_cons_of_mem _ hLater) rfl
      · rw [List.mem_singleton.mp hOwn] at hLater
        exact (List.nodup_cons.mp hRest).1 hLater
    rw [List.foldl_append, List.foldl_cons, List.foldl_nil, visit_of_not_mem hKept]
    split
    · exact flat_newpixel _
    · next hOther =>
      rcases List.mem_append.mp hq with hDone | hOwn
      · exact ih hScan q hDone
      · exact absurd (List.mem_singleton.mp hOwn) hOther

/-- Where error goes forward only, every visited pixel stays as it is. -/
theorem flattens_of_pushesForward (hForward : PushesForward d img) : Flattens d img :=
  flatten_run hForward (List.append_nil img.scan).symm

/-! ### Where the matrices lie -/

theorem mem_pushes {quanterror : ℚ} {push : Push} (hPush : push ∈ d.pushes img place quanterror) :
    ∃ ditherx < d.columns, ∃ dithery < d.rows, d.factor ditherx dithery ≠ 0 ∧
      place.1 + ditherx = push.place.1 + d.offsetx ∧ place.2 + dithery = push.place.2 + d.offsety ∧
      push.place ∈ img.scan ∧
      push.change = d.factor ditherx dithery * quanterror / d.divisor := by
  obtain ⟨ditherx, hColumn, hPush⟩ := List.mem_flatMap.mp hPush
  obtain ⟨dithery, hRow, hPush⟩ := List.mem_filterMap.mp hPush
  refine ⟨ditherx, List.mem_range.mp hColumn, dithery, List.mem_range.mp hRow, ?_⟩
  dsimp only at hPush
  split_ifs at hPush with hFactor hx hy
  obtain rfl := Option.some.inj hPush
  refine ⟨hFactor, ?_, ?_, ?_, rfl⟩
  · show place.1 + ditherx = Int.toNat _ + d.offsetx
    omega
  · show place.2 + dithery = Int.toNat _ + d.offsety
    omega
  · rw [mem_scan]
    constructor
    · show Int.toNat _ < img.destw
      omega
    · show Int.toNat _ < img.desth
      omega

/-- The weights lie behind the current pixel in the order of the loops. -/
def Dither.Ahead (d : Dither) : Prop :=
  ∀ ditherx < d.columns, ∀ dithery < d.rows, d.factor ditherx dithery ≠ 0 →
    d.offsety < dithery ∨ d.offsety = dithery ∧ d.offsetx < ditherx

/-- Any matrix may be used as long as its weights lie ahead. -/
theorem pushesForward_of_ahead (hAhead : d.Ahead) (img : Picture) : PushesForward d img := by
  intro done place rest hScan push hPush _
  obtain ⟨ditherx, hColumn, dithery, hRow, hFactor, hx, hy, hMem, -⟩ := mem_pushes hPush
  apply mem_rest hScan hMem
  rcases hAhead ditherx hColumn dithery hRow hFactor with hBelow | ⟨hLine, hRight⟩
  · left
    omega
  · right
    omega

theorem floydSteinberg_ahead : floydSteinberg.Ahead := by
  intro ditherx hColumn dithery hRow
  revert dithery
  revert ditherx
  decide

/-! ### The matrix one row too high -/

/-- The error of a pixel that has its colour already is zero. -/
theorem pushesAt_flat (hFlat : Flat (pixels place)) :
    ∀ push ∈ pushesAt d img pixels place, push.change = 0 := by
  intro push hPush
  obtain ⟨ditherx, -, dithery, -, -, -, -, -, hChange⟩ := mem_pushes hPush
  rw [hChange, newpixel_of_flat hFlat, sub_self, mul_zero, zero_div]

theorem visit_flat (hFlat : Flat (pixels place)) : visit d img pixels place = pixels := by
  funext q
  have hNone : ∀ push ∈ pushesAt d img pixels place, push.change ≠ 0 → push.place ≠ q :=
    fun push hPush hChange => absurd (pushesAt_flat hFlat push hPush) hChange
  rw [visit_of_not_mem hNone]
  split
  · next hOwn =>
    rw [hOwn, newpixel_of_flat hFlat]
  · rfl

theorem run_flat {done : List Place} (hFlat : ∀ q ∈ done, Flat (pixels q)) :
    done.foldl (visit d img) pixels = pixels := by
  induction done with
  | nil => rfl
  | cons place done ih =>
    rw [List.forall_mem_cons] at hFlat
    rw [List.foldl_cons, visit_flat hFlat.1, ih hFlat.2]

/-- The weight 7 of the second row is that of the pixel itself. -/
theorem self_push (hMem : place ∈ img.scan) (quanterror : ℚ) :
    ({ place := place, change := 7 * quanterror / 48 } : Push) ∈
      minimizedAverageError.pushes img place quanterror := by
  obtain ⟨hx, hy⟩ := mem_scan.mp hMem
  refine List.mem_flatMap.mpr ⟨2, by decide, List.mem_filterMap.mpr ⟨1, by decide, ?_⟩⟩
  have hFactor : minimizedAverageError.factor 2 1 = 7 := rfl
  have hColumn : (place.1 : Int) + (2 : Nat) - (minimizedAverageError.offsetx : Nat) = place.1 :=
    Int.add_sub_cancel _ _
  have hRow : (place.2 : Int) + (1 : Nat) - (minimizedAverageError.offsety : Nat) = place.2 :=
    Int.add_sub_cancel _ _
  dsimp only
  rw [hColumn, hRow, hFactor, if_neg (by decide), if_neg (by omega), if_neg (by omega)]
  rfl

theorem flat_of_pushesForward (hForward : PushesForward minimizedAverageError img) :
    ∀ q ∈ img.scan, Flat (img.pixels q) := by
  suffices hRun : ∀ done rest, img.scan = done ++ rest → ∀ q ∈ done, Flat (img.pixels q) from
    hRun img.scan [] (List.append_nil img.scan).symm
  intro done
  induction done using List.reverseRecOn with
  | nil => exact fun _ _ q hq => absurd hq List.not_mem_nil
  | append_singleton done place ih =>
    intro rest hScan
    rw [List.append_assoc, List.singleton_append] at hScan
    have hDone := ih (place :: rest) hScan
    have hMem : place ∈ img.scan := by
      rw [hScan]
      exact List.mem_append_right _ List.mem_cons_self
    have hNotRest : place ∉ rest := by
      have hNodup := scan_nodup img
      rw [hScan, List.nodup_append] at hNodup
      exact (List.nodup_cons.mp hNodup.2.1).1
    rw [List.forall_mem_append, List.forall_mem_singleton]
    refine ⟨hDone, flat_of_error ?_⟩
    by_contra hError
    apply hNotRest
    have hPush := hForward done place rest hScan
    rw [run_flat hDone] at hPush
    refine hPush _ (self_push hMem _) ?_
    exact div_ne_zero (mul_ne_zero (by decide) hError) (by decide)

/-- Both matrices keep the error ahead of the scan, except for the one of setting 1, which does
so only where there is no error at all. -/
theorem dither_iff (imagesoftness : Nat) (img : Picture) :
    (∀ d, ditherOf imagesoftness = some d → PushesForward d img ∧ Flattens d img) ↔
      imagesoftness ≠ 1 ∨ ∀ place ∈ img.scan, Flat (img.pixels place) := by
  constructor
  · intro hAll
    by_cases hOne : imagesoftness = 1
    · right
      subst hOne
      exact flat_of_pushesForward (hAll minimizedAverageError rfl).1
    · exact .inl hOne
  · intro hWhen d hDither
    have hForward : PushesForward d img := by
      rcases hWhen with hOther | hFlat
      · rw [ditherOf, if_neg hOther] at hDither
        split at hDither
        · obtain rfl := Option.some.inj hDither
          exact pushesForward_of_ahead floydSteinberg_ahead img
        · cases hDither
      · intro done place rest hScan push hPush hChange
        rw [hScan, List.forall_mem_append, List.forall_mem_cons] at hFlat
        rw [run_flat hFlat.1] at hPush
        exact absurd (pushesAt_flat hFlat.2.1 push hPush) hChange
    exact ⟨hForward, flattens_of_pushesForward hForward⟩

/-- One grey pixel, with the default setting: its error comes back to it. -/
theorem not_dither_grey : ¬ ∀ imagesoftness img d, ditherOf imagesoftness = some d →
    PushesForward d img ∧ Flattens d img := by
  intro hAll
  have hBoth := hAll 1 { destw := 1, desth := 1, pixels := fun _ => 100 } minimizedAverageError rfl
  have hFlat := flat_of_pushesForward hBoth.1 (0, 0) (by decide)
  norm_num [Flat] at hFlat

end PageCamel.Helpers.Dithering
