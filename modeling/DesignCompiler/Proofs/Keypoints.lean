import DesignCompiler.Assembly.Decoration
import DesignCompiler.Proofs.Association
import DesignCompiler.Proofs.Magnitudes

/-!
The course of a gradient. Its keypoints are the stops, held within zero and one and in order, between a
keypoint at either end where the stops leave one open.
-/
namespace DesignCompiler.Decoration

open Binary64

variable {α : Type} [Scalar α]

/-- The stops, held within zero and one. -/
def heldStops (stops : List (ColorStop α)) : List (α × Color α) :=
  stops.map fun stop => (Scalar.unit stop.position, stop.color)

/-- The stops, held within zero and one and in order. -/
def orderedStops (stops : List (ColorStop α)) : List (α × Color α) :=
  (heldStops stops).mergeSort fun a b => Scalar.order a.1 b.1 != .gt

/-- The keypoint at zero, if the first one is later. -/
def leadIn : List (α × Color α) → List (α × Color α)
  | [] => []
  | (time, color) :: _ => if 0 < time then [(0, color)] else []

/-- The keypoint at one, if the last one is earlier. -/
def leadOut (points : List (α × Color α)) : List (α × Color α) :=
  match points.getLast? with
  | some (time, color) => if time < 1 then [(1, color)] else []
  | none => []

/-- Points with a keypoint at either end where they leave one open. -/
def capped (points : List (α × Color α)) : List (α × Color α) := leadIn points ++ points ++ leadOut points

theorem keypoints_eq (stops : List (ColorStop α)) : keypoints stops = capped (orderedStops stops) := by
  simp only [keypoints]
  rw [← heldStops, ← orderedStops]
  cases orderedStops stops with
  | nil => rfl
  | cons first rest =>
    obtain ⟨time, color⟩ := first
    simp only [capped, leadIn, leadOut]
    by_cases later : 0 < time
    · simp only [if_pos later, List.getLast?_cons_cons]
      cases ((time, color) :: rest).getLast? with
      | none => simp
      | some last => by_cases earlier : last.1 < 1 <;> simp [earlier]
    · simp only [if_neg later, List.nil_append]
      cases ((time, color) :: rest).getLast? with
      | none => simp
      | some last => by_cases earlier : last.1 < 1 <;> simp [earlier]

/-- A keypoint or the whole gradient lets something through. -/
def seesThrough (paint : GradientPaint α) : Bool :=
  (keypoints paint.stops).any (fun point => decide (point.2.a < 1)) || decide (paint.opacity < 1)

/-- How transparent each keypoint is. -/
def veils (paint : GradientPaint α) : List (α × α) :=
  (keypoints paint.stops).map fun point => (point.1, transparency point.2.a paint.opacity)

/-- The angle of a gradient, if its handles give one. -/
def turn (paint : GradientPaint α) : List (String × Property α) :=
  match gradientAngle paint.handles with
  | some angle => [("Rotation", .float angle)]
  | none => []

theorem turn_cases (paint : GradientPaint α) :
    turn paint = [] ∨ ∃ angle, turn paint = [("Rotation", .float angle)] := by
  rw [turn]
  split
  · exact .inr ⟨_, rfl⟩
  · exact .inl rfl

/-- What a gradient with keypoints sets. -/
theorem gradient_eq (id : String) (shape : GradientShape) {paint : GradientPaint α}
    (full : keypoints paint.stops ≠ []) :
    (gradient id shape paint).1 = [.mk "UIGradient" "UIGradient"
      (("Color", .colorSequence (keypoints paint.stops)) ::
        (if seesThrough paint then [("Transparency", .numberSequence (veils paint))] else []) ++
          turn paint) []] := by
  have shown : (keypoints paint.stops).isEmpty = false := by simpa using full
  have drawn : (gradient id shape paint).1 = [leaf "UIGradient" "UIGradient"
      ([("Color", .colorSequence (keypoints paint.stops))] ++
        (if seesThrough paint then [("Transparency", .numberSequence (veils paint))] else []) ++
          turn paint)] := by
    simp only [gradient, shown]
    rfl
  rw [drawn]
  rcases turn_cases paint with turned | ⟨angle, turned⟩ <;> rw [turned] <;> cases seesThrough paint <;> rfl

/-- What the engine takes for a gradient with some stops. -/
structure Course (stops : List (ColorStop Float)) (points : List (Float × Color Float)) : Prop where
  several : 2 ≤ points.length
  ordered : points.Pairwise (fun a b => a.1 ≤ b.1)
  within : ∀ point ∈ points, 0 ≤ point.1 ∧ point.1 ≤ 1
  first : ∃ point, points.head? = some point ∧ (point.1 == 0) = true
  last : ∃ point, points.getLast? = some point ∧ (point.1 == 1) = true
  /-- Each stop is there once, and at either end at most one keypoint more, in the color of the next. -/
  declared : ∃ front middle back, points = front ++ middle ++ back ∧ middle.Perm (heldStops stops) ∧
    (front = [] ∨ ∃ next, middle.head? = some next ∧ front = [(0, next.2)]) ∧
    (back = [] ∨ ∃ next, middle.getLast? = some next ∧ back = [(1, next.2)])

section Stops

variable {stops : List (ColorStop Float)}

theorem within_orderedStops (numbers : ∀ stop ∈ stops, IsNumber stop.position) :
    ∀ point ∈ orderedStops stops, 0 ≤ point.1 ∧ point.1 ≤ 1 := by
  intro point member
  obtain ⟨stop, declared, rfl⟩ := List.mem_map.mp (List.mem_mergeSort.mp member)
  exact unit_within (numbers stop declared)

theorem pairwise_orderedStops (numbers : ∀ stop ∈ stops, IsNumber stop.position) :
    (orderedStops stops).Pairwise (fun a b => a.1 ≤ b.1) := by
  have ranked := pairwise_rank_mergeSort (fun point : Float × Color Float => point.1) (heldStops stops)
  rw [← orderedStops] at ranked
  refine ranked.imp_of_mem fun {a b} here there ordered => ?_
  have number := (le_iff.mp (within_orderedStops numbers a here).1).2.1
  have number' := (le_iff.mp (within_orderedStops numbers b there).1).2.1
  exact le_iff.mpr ⟨number, number', ordered⟩

end Stops

section Ends

variable {points : List (Float × Color Float)}

/-- Points start at zero, or else a keypoint is put there. -/
theorem leadIn_cases {next : Float × Color Float} (head : points.head? = some next) (nonneg : 0 ≤ next.1) :
    leadIn points = [(0, next.2)] ∨ leadIn points = [] ∧ (next.1 == 0) = true := by
  obtain ⟨rest, rfl⟩ := List.head?_eq_some_iff.mp head
  change (if (0 : Float) < next.1 then _ else _) = _ ∨ (if (0 : Float) < next.1 then _ else _) = _ ∧ _
  by_cases later : 0 < next.1
  · rw [if_pos later]
    exact .inl rfl
  · obtain ⟨zero, number, above⟩ := le_iff.mp nonneg
    have below := (le_iff.mp (le_of_not_lt zero number later)).2.2
    rw [if_neg later]
    exact .inr ⟨rfl, beq_iff.mpr ⟨number, zero, below.antisymm above⟩⟩

/-- Points end at one, or else a keypoint is put there. -/
theorem leadOut_cases {next : Float × Color Float} (last : points.getLast? = some next) (within : next.1 ≤ 1) :
    leadOut points = [(1, next.2)] ∨ leadOut points = [] ∧ (next.1 == 1) = true := by
  rw [leadOut, last]
  change (if next.1 < (1 : Float) then _ else _) = _ ∨ (if next.1 < (1 : Float) then _ else _) = _ ∧ _
  by_cases earlier : next.1 < 1
  · rw [if_pos earlier]
    exact .inl rfl
  · obtain ⟨number, one, below⟩ := le_iff.mp within
    have above := (le_iff.mp (le_of_not_lt number one earlier)).2.2
    rw [if_neg earlier]
    exact .inr ⟨rfl, beq_iff.mpr ⟨number, one, below.antisymm above⟩⟩

theorem leadIn_next (points : List (Float × Color Float)) :
    leadIn points = [] ∨ ∃ next, points.head? = some next ∧ leadIn points = [(0, next.2)] := by
  cases points with
  | nil => exact .inl rfl
  | cons first rest =>
    simp only [leadIn]
    split
    · exact .inr ⟨first, rfl, rfl⟩
    · exact .inl rfl

theorem leadOut_next (points : List (Float × Color Float)) :
    leadOut points = [] ∨ ∃ next, points.getLast? = some next ∧ leadOut points = [(1, next.2)] := by
  rw [leadOut]
  split
  · rename_i last
    split
    · exact .inr ⟨_, last, rfl⟩
    · exact .inl rfl
  · exact .inl rfl

theorem time_leadIn : ∀ point ∈ leadIn points, point.1 = 0 := by
  rcases leadIn_next points with same | ⟨next, _, same⟩ <;> rw [same]
  · exact List.forall_mem_nil _
  · exact List.forall_mem_singleton.mpr rfl

theorem time_leadOut : ∀ point ∈ leadOut points, point.1 = 1 := by
  rcases leadOut_next points with same | ⟨next, _, same⟩ <;> rw [same]
  · exact List.forall_mem_nil _
  · exact List.forall_mem_singleton.mpr rfl

/-- No keypoint is at zero and at one. -/
theorem two_le_length {one other : Float × Color Float} (head : points.head? = some one)
    (last : points.getLast? = some other) (start : (one.1 == 0) = true) (stop : (other.1 == 1) = true) :
    2 ≤ points.length := by
  match points with
  | [] => cases head
  | [point] =>
    cases head
    cases last
    have same := (beq_iff.mp start).2.2.symm.trans (beq_iff.mp stop).2.2
    exact absurd same (by decide)
  | _ :: _ :: rest => exact Nat.le_add_left 2 rest.length

section Within

variable (within : ∀ point ∈ points, 0 ≤ point.1 ∧ point.1 ≤ 1)

include within

theorem within_capped : ∀ point ∈ capped points, 0 ≤ point.1 ∧ point.1 ≤ 1 := by
  intro point member
  rcases List.mem_append.mp member with member | member
  · rcases List.mem_append.mp member with member | member
    · rw [time_leadIn point member]
      exact ⟨le_refl isNumber_zero, one_nonneg⟩
    · exact within point member
  · rw [time_leadOut point member]
    exact ⟨one_nonneg, le_refl isNumber_one⟩

theorem pairwise_capped (ordered : points.Pairwise (fun a b => a.1 ≤ b.1)) :
    (capped points).Pairwise (fun a b => a.1 ≤ b.1) := by
  refine List.pairwise_append.mpr ⟨List.pairwise_append.mpr ⟨?_, ordered, ?_⟩, ?_, ?_⟩
  · refine List.pairwise_of_forall_mem_list fun a here b there => ?_
    rw [time_leadIn a here, time_leadIn b there]
    exact le_refl isNumber_zero
  · intro a here b there
    rw [time_leadIn a here]
    exact (within b there).1
  · refine List.pairwise_of_forall_mem_list fun a here b there => ?_
    rw [time_leadOut a here, time_leadOut b there]
    exact le_refl isNumber_one
  · intro a here b there
    rw [time_leadOut b there]
    exact (within_capped within a (List.mem_append_left _ here)).2

theorem head_capped (full : points ≠ []) :
    ∃ point, (capped points).head? = some point ∧ (point.1 == 0) = true := by
  obtain ⟨next, head⟩ := Option.ne_none_iff_exists'.mp (List.head?_eq_none_iff.not.mpr full)
  rw [capped]
  rcases leadIn_cases head (within next (List.mem_of_head? head)).1 with same | ⟨same, start⟩ <;> rw [same]
  · exact ⟨_, rfl, beq_self isNumber_zero⟩
  · refine ⟨next, ?_, start⟩
    rw [List.nil_append, List.head?_append, head]
    rfl

theorem last_capped (full : points ≠ []) :
    ∃ point, (capped points).getLast? = some point ∧ (point.1 == 1) = true := by
  obtain ⟨next, last⟩ := Option.ne_none_iff_exists'.mp (List.getLast?_eq_none_iff.not.mpr full)
  rw [capped]
  rcases leadOut_cases last (within next (List.mem_of_getLast? last)).2 with same | ⟨same, stop⟩ <;> rw [same]
  · exact ⟨_, List.getLast?_concat .., beq_self isNumber_one⟩
  · refine ⟨next, ?_, stop⟩
    rw [List.append_nil, List.getLast?_append, last]
    rfl

end Within

end Ends

theorem perm_orderedStops (stops : List (ColorStop α)) : (orderedStops stops).Perm (heldStops stops) :=
  List.mergeSort_perm ..

theorem orderedStops_eq_nil {stops : List (ColorStop α)} : orderedStops stops = [] ↔ stops = [] := by
  constructor
  · intro none
    have perm := perm_orderedStops stops
    rw [none] at perm
    exact List.map_eq_nil_iff.mp perm.nil_eq.symm
  · rintro rfl
    exact (perm_orderedStops []).eq_nil

theorem keypoints_eq_nil {stops : List (ColorStop α)} : keypoints stops = [] ↔ stops = [] := by
  rw [keypoints_eq, capped, List.append_eq_nil_iff, List.append_eq_nil_iff, ← orderedStops_eq_nil]
  constructor
  · exact fun none => none.1.2
  · intro none
    rw [none]
    exact ⟨⟨rfl, rfl⟩, rfl⟩

/-- The keypoints have the colors of the stops and no others. -/
theorem colors_keypoints (stops : List (ColorStop Float)) (holds : Color Float → Prop) :
    (∃ point ∈ keypoints stops, holds point.2) ↔ ∃ stop ∈ stops, holds stop.color := by
  have same : (∃ point ∈ orderedStops stops, holds point.2) ↔ ∃ stop ∈ stops, holds stop.color := by
    simp only [(perm_orderedStops stops).mem_iff, heldStops, List.mem_map, exists_exists_and_eq_and]
  rw [← same, keypoints_eq]
  constructor
  · rintro ⟨point, member, held⟩
    rcases List.mem_append.mp member with member | member
    · rcases List.mem_append.mp member with member | member
      · rcases leadIn_next (orderedStops stops) with none | ⟨next, head, single⟩
        · rw [none] at member
          cases member
        · rw [single] at member
          obtain rfl := List.mem_singleton.mp member
          exact ⟨next, List.mem_of_head? head, held⟩
      · exact ⟨point, member, held⟩
    · rcases leadOut_next (orderedStops stops) with none | ⟨next, last, single⟩
      · rw [none] at member
        cases member
      · rw [single] at member
        obtain rfl := List.mem_singleton.mp member
        exact ⟨next, List.mem_of_getLast? last, held⟩
  · rintro ⟨point, member, held⟩
    exact ⟨point, List.mem_append_left _ (List.mem_append_right _ member), held⟩

/-- A gradient with a stop runs from zero to one through all its stops. -/
theorem course_keypoints {stops : List (ColorStop Float)} (declared : stops ≠ [])
    (numbers : ∀ stop ∈ stops, IsNumber stop.position) : Course stops (keypoints stops) := by
  have perm := perm_orderedStops stops
  have within := within_orderedStops numbers
  have full : orderedStops stops ≠ [] := fun none => declared (orderedStops_eq_nil.mp none)
  obtain ⟨first, head, start⟩ := head_capped within full
  obtain ⟨last, final, stop⟩ := last_capped within full
  rw [keypoints_eq]
  exact ⟨two_le_length head final start stop, pairwise_capped within (pairwise_orderedStops numbers),
    within_capped within, ⟨first, head, start⟩, ⟨last, final, stop⟩, _, _, _, rfl, perm, leadIn_next _,
    leadOut_next _⟩

theorem gradient_of_stopless (id : String) (shape : GradientShape) {paint : GradientPaint α}
    (stopless : paint.stops = []) : (gradient id shape paint).1 = [] := by
  have empty : (keypoints paint.stops).isEmpty = true := List.isEmpty_iff.mpr (keypoints_eq_nil.mpr stopless)
  simp only [gradient, empty, if_true]

theorem seesThrough_iff (paint : GradientPaint Float) :
    seesThrough paint = true ↔ (∃ stop ∈ paint.stops, stop.color.a < 1) ∨ paint.opacity < 1 := by
  simp only [seesThrough, Bool.or_eq_true, List.any_eq_true, decide_eq_true_iff]
  exact or_congr (colors_keypoints paint.stops fun color => color.a < 1) Iff.rfl

/-- A gradient with a stop sets its course, and where it lets something through, how much of it at the same
times. -/
theorem gradient_sets (id : String) (shape : GradientShape) {paint : GradientPaint Float}
    (full : paint.stops ≠ []) (numbers : ∀ stop ∈ paint.stops, IsNumber stop.position) :
    ∃ properties points, (gradient id shape paint).1 = [.mk "UIGradient" "UIGradient" properties []] ∧
      properties.lookup "Color" = some (.colorSequence points) ∧ Course paint.stops points ∧
      ((∃ value, properties.lookup "Transparency" = some value) ↔
        (∃ stop ∈ paint.stops, stop.color.a < 1) ∨ paint.opacity < 1) ∧
      ∀ value, properties.lookup "Transparency" = some value →
        ∃ values, value = .numberSequence values ∧ values.map (·.1) = points.map (·.1) := by
  have course := course_keypoints full numbers
  have shown : keypoints paint.stops ≠ [] := fun none => by
    have several := course.several
    rw [none] at several
    exact absurd several (by decide)
  have through := seesThrough_iff paint
  have times : (veils paint).map (·.1) = (keypoints paint.stops).map (·.1) := List.map_map
  have held : List.lookup "Transparency" (("Color", .colorSequence (keypoints paint.stops)) ::
      (if seesThrough paint then [("Transparency", .numberSequence (veils paint))] else []) ++ turn paint) =
      if seesThrough paint then some (.numberSequence (veils paint)) else none := by
    rcases turn_cases paint with turned | ⟨angle, turned⟩ <;> rw [turned] <;>
      cases seesThrough paint <;> rfl
  refine ⟨_, keypoints paint.stops, gradient_eq id shape shown, rfl, course, ?_, ?_⟩
  · rw [held, ← through]
    cases seesThrough paint <;> simp
  · intro value found
    rw [held] at found
    split at found
    · exact ⟨_, (Option.some.inj found).symm, times⟩
    · cases found

/-- A gradient that ends in the middle, and starts far to the right with something that can be seen through. -/
def dusk : GradientPaint Float := ⟨true, 1, [⟨3, ⟨0, 0, 0, 1 / 2⟩⟩, ⟨1 / 2, ⟨1, 1, 1, 1⟩⟩], []⟩

theorem dusk_sets : dusk.stops ≠ [] ∧ (∀ stop ∈ dusk.stops, IsNumber stop.position) ∧
    ∃ properties points values, (gradient "1" .radial dusk).1 = [.mk "UIGradient" "UIGradient" properties []] ∧
      properties.lookup "Color" = some (.colorSequence points) ∧ Course dusk.stops points ∧
      properties.lookup "Transparency" = some (.numberSequence values) ∧
      values.map (·.1) = points.map (·.1) := by
  have full : dusk.stops ≠ [] := List.cons_ne_nil _ _
  have numbers : ∀ stop ∈ dusk.stops, IsNumber stop.position := by
    have first : IsNumber 3 := by decide
    have second : IsNumber (1 / 2) := by decide
    exact List.forall_mem_cons.mpr ⟨first, List.forall_mem_singleton.mpr second⟩
  have through : (1 / 2 : Float) < 1 := by decide
  obtain ⟨properties, points, drawn, color, course, shown, times⟩ := gradient_sets "1" .radial full numbers
  obtain ⟨value, held⟩ := shown.mpr (.inl ⟨_, List.mem_cons_self, through⟩)
  obtain ⟨values, rfl, same⟩ := times value held
  exact ⟨full, numbers, properties, points, values, drawn, color, course, held, same⟩

end DesignCompiler.Decoration
