import DesignCompiler.Config.Source
import DesignCompiler.Host.Disk
import DesignCompiler.Proofs.Remainders
import DesignCompiler.Proofs.StrokeCollapse

/-!
How close together texts are that collapse. Enough of them are within the radius around the middle of all,
and from end to end these take up no more than what is accepted, unless that is not a number, or the radius
reaches places without end.
-/
namespace DesignCompiler

open Binary64 (IsNumber isFinite)

namespace Stroke

/-- The middle one of some values in order, or the mean of the two in the middle. -/
def IsMedian (values : List Float) (middle : Float) : Prop :=
  ∃ ordered : List Float, ordered.Perm values ∧ ordered.Pairwise (fun a b => ¬ b < a) ∧
    (ordered.length % 2 = 1 ∧ ordered[ordered.length / 2]? = some middle ∨
      ordered.length % 2 = 0 ∧ ∃ low high, ordered[ordered.length / 2 - 1]? = some low ∧
        ordered[ordered.length / 2]? = some high ∧ middle = (low + high) / 2)

theorem isMedian_median {values : List Float} (some : values ≠ []) : IsMedian values (median values) := by
  have perm : (values.mergeSort fun x y => Scalar.order x y != .gt).Perm values := List.mergeSort_perm ..
  have ordered := (Binary64.pairwise_rank_mergeSort id values).imp fun {a b} (below : Binary64.rank a ≤ _) =>
    fun (less : b < a) => Int.not_lt.mpr below (Binary64.lt_iff.mp less).2.2
  have positive : 0 < (values.mergeSort fun x y => Scalar.order x y != .gt).length := by
    rw [perm.length_eq]
    exact List.length_pos_of_ne_nil some
  refine ⟨_, perm, ordered, ?_⟩
  simp only [median]
  generalize (values.mergeSort fun x y => Scalar.order x y != .gt) = sorted at positive
  have held {position : Nat} (inside : position < sorted.length) :
      sorted[position]? = Option.some (sorted.getD position 0) := by
    rw [List.getD_eq_getElem?_getD, List.getElem?_eq_getElem inside]
    rfl
  split
  · rename_i even
    exact .inr ⟨even, _, _, held (by omega), held (by omega), rfl⟩
  · rename_i odd
    exact .inl ⟨by omega, held (by omega)⟩

/-- The least and the greatest of some values. -/
structure Ends (values : List Float) (low high : Float) : Prop where
  low_mem : low ∈ values
  high_mem : high ∈ values
  between : ∀ value ∈ values, low ≤ value ∧ value ≤ high

/-- Places on an axis take up no more than the accepted spread, if that is a number. They are not measured where
they have no finite beginning, which only an infinite radius lets happen. -/
def Narrow (thresholds : StrokeThresholds Float) (places : List Float) : Prop :=
  ∃ low high, Ends places low high ∧
    (isFinite low = true → (high - low ≤ thresholds.maxSpread ↔ IsNumber thresholds.maxSpread)) ∧
    (isFinite low = false → spread places = 0 ∧ isFinite thresholds.clusterRadius = false)

section Extremes

variable {x y : Float}

theorem greatest_of_numbers (number : IsNumber x) (number' : IsNumber y) :
    (Scalar.greatest x y = x ∨ Scalar.greatest x y = y) ∧ x ≤ Scalar.greatest x y ∧
      y ≤ Scalar.greatest x y := by
  rw [Scalar.greatest, if_pos (Binary64.beq_self number)]
  split
  · rename_i less
    exact ⟨.inr rfl, Binary64.le_of_lt less, Binary64.le_refl number'⟩
  · rename_i failing
    exact ⟨.inl rfl, Binary64.le_refl number, Binary64.le_of_not_lt number number' failing⟩

theorem least_of_numbers (number : IsNumber x) (number' : IsNumber y) :
    (Scalar.least x y = x ∨ Scalar.least x y = y) ∧ Scalar.least x y ≤ x ∧ Scalar.least x y ≤ y := by
  rw [Scalar.least, if_pos (Binary64.beq_self number)]
  split
  · rename_i less
    exact ⟨.inr rfl, Binary64.le_of_lt less, Binary64.le_refl number'⟩
  · rename_i failing
    exact ⟨.inl rfl, Binary64.le_refl number, Binary64.le_of_not_lt number' number failing⟩

/-- A choice of the later one of any two numbers finds the last one of many. -/
theorem foldl_choice {choice : Float → Float → Float} {before : Float → Float → Prop}
    (stays : ∀ {x}, IsNumber x → before x x) (onward : ∀ {x y z}, before x y → before y z → before x z)
    (chooses : ∀ {x y}, IsNumber x → IsNumber y →
      (choice x y = x ∨ choice x y = y) ∧ before x (choice x y) ∧ before y (choice x y)) :
    (rest : List Float) → (first : Float) → (∀ value ∈ first :: rest, IsNumber value) →
    rest.foldl choice first ∈ first :: rest ∧ ∀ value ∈ first :: rest, before value (rest.foldl choice first)
  | [], first, numbers => by
    obtain ⟨number, _⟩ := List.forall_mem_cons.mp numbers
    exact ⟨List.mem_cons_self, List.forall_mem_singleton.mpr (stays number)⟩
  | second :: rest, first, numbers => by
    obtain ⟨number, numbers⟩ := List.forall_mem_cons.mp numbers
    obtain ⟨number', others⟩ := List.forall_mem_cons.mp numbers
    obtain ⟨either, one, other⟩ := chooses number number'
    have chosen : IsNumber (choice first second) := by
      rcases either with same | same <;> rw [same] <;> assumption
    obtain ⟨member, last⟩ := foldl_choice stays onward chooses rest (choice first second)
      (List.forall_mem_cons.mpr ⟨chosen, others⟩)
    obtain ⟨self, later⟩ := List.forall_mem_cons.mp last
    rw [List.foldl_cons]
    constructor
    · rcases List.mem_cons.mp member with same | member
      · rw [same]
        rcases either with same | same <;> rw [same] <;> simp
      · exact List.mem_cons_of_mem _ (List.mem_cons_of_mem _ member)
    · exact List.forall_mem_cons.mpr ⟨onward one self, List.forall_mem_cons.mpr ⟨onward other self, later⟩⟩

end Extremes

theorem ends_spread {values : List Float} (some : values ≠ []) (numbers : ∀ value ∈ values, IsNumber value) :
    ∃ low high, Ends values low high ∧ spread values = if isFinite low then high - low else 0 := by
  cases values with
  | nil => exact absurd rfl some
  | cons first rest =>
    obtain ⟨greatest, above⟩ := @foldl_choice Scalar.greatest (fun x y => x ≤ y) Binary64.le_refl
      Binary64.le_trans greatest_of_numbers rest first numbers
    obtain ⟨least, below⟩ := @foldl_choice Scalar.least (fun x y => y ≤ x) Binary64.le_refl
      (fun one other => Binary64.le_trans other one) least_of_numbers rest first numbers
    exact ⟨_, _, ⟨least, greatest, fun value member => ⟨below value member, above value member⟩⟩, rfl⟩

/-- What is known of a group that collapses: the members close to its middle on both axes are enough, and they
are within the accepted spread on either axis. -/
structure CollapsedCore (thresholds : StrokeThresholds Float) (members : List (Member Float)) (x y : Float)
    (core : List (Member Float)) : Prop where
  middle : IsMedian (members.map (·.layer.x)) x ∧ IsMedian (members.map (·.layer.y)) y
  core_eq : core = members.filter fun member =>
    decide (Scalar.abs (member.layer.x - x) ≤ thresholds.clusterRadius) &&
      decide (Scalar.abs (member.layer.y - y) ≤ thresholds.clusterRadius)
  enough : thresholds.minGroup ≤ core.length
  narrow : Narrow thresholds (core.map (·.layer.x)) ∧ Narrow thresholds (core.map (·.layer.y))

/-- A group has been taken together as some thresholds ask for. -/
def WithinThresholds (thresholds : StrokeThresholds Float) (members : List (Member Float)) : Prop :=
  0 < thresholds.clusterRadius ∧ ∃ x y core, CollapsedCore thresholds members x y core

section Evaluate

variable {thresholds : StrokeThresholds Float} {members : List (Member Float)}

theorem isNumber_abs {x : Float} (number : IsNumber (Scalar.abs x)) : IsNumber x := by
  rw [Scalar.abs] at number
  split at number
  · rename_i less
    exact (Binary64.lt_iff.mp less).1
  · exact number

/-- A place within reach of another is a number, and so is the reach; with a finite reach it is finite. -/
theorem numbers_of_abs_sub_le {place middle reach : Float} (close : Scalar.abs (place - middle) ≤ reach) :
    IsNumber place ∧ IsNumber reach ∧ (isFinite reach = true → isFinite place = true) := by
  obtain ⟨across, radius, _⟩ := Binary64.le_iff.mp close
  have number := (Binary64.isNumber_of_sub (isNumber_abs across)).1
  exact ⟨number, radius, Binary64.isFinite_of_close close number⟩

variable (thresholds members) in
/-- The members close to the middle of all. -/
def core : List (Member Float) :=
  members.filter (isCore thresholds (median (members.map (·.layer.x))) (median (members.map (·.layer.y))))

theorem core_of_evaluate {collapse : Collapse Float} (decided : evaluate thresholds members = some collapse) :
    thresholds.minGroup ≤ (core thresholds members).length ∧
      ¬ thresholds.maxSpread < spread ((core thresholds members).map (·.layer.x)) ∧
      ¬ thresholds.maxSpread < spread ((core thresholds members).map (·.layer.y)) := by
  unfold evaluate at decided
  simp only [List.partition_eq_filter_filter] at decided
  split at decided
  · cases decided
  · rename_i enough
    split at decided
    · cases decided
    · rename_i tight
      exact ⟨Nat.le_of_not_lt enough, not_or.mp tight⟩

theorem close_of_core {member : Member Float} (inside : member ∈ core thresholds members) :
    Scalar.abs (member.layer.x - median (members.map (·.layer.x))) ≤ thresholds.clusterRadius ∧
      Scalar.abs (member.layer.y - median (members.map (·.layer.y))) ≤ thresholds.clusterRadius := by
  simpa [isCore] using (List.mem_filter.mp inside).2

/-- Places within the radius of a middle that have passed the test of their spread. -/
theorem narrow_of_spread {places : List Float} {middle : Float} (some : places ≠ [])
    (close : ∀ place ∈ places, Scalar.abs (place - middle) ≤ thresholds.clusterRadius)
    (tight : ¬ thresholds.maxSpread < spread places) : Narrow thresholds places := by
  obtain ⟨low, high, ends, measured⟩ := ends_spread some fun place member =>
    (numbers_of_abs_sub_le (close place member)).1
  refine ⟨low, high, ends, fun finite => ?_, fun infinite => ?_⟩
  · have width : IsNumber (high - low) := Binary64.isNumber_sub
      (numbers_of_abs_sub_le (close high ends.high_mem)).1 (numbers_of_abs_sub_le (close low ends.low_mem)).1
      (.inr finite)
    rw [measured, if_pos finite] at tight
    exact ⟨fun within => (Binary64.le_iff.mp within).2.1, fun most => Binary64.le_of_not_lt most width tight⟩
  · refine ⟨by rw [measured, infinite]; rfl, ?_⟩
    by_contra reach
    have finite := (numbers_of_abs_sub_le (close low ends.low_mem)).2.2 (by simpa using reach)
    rw [infinite] at finite
    cases finite

theorem collapsedCore_of_evaluate {collapse : Collapse Float} (several : 0 < thresholds.minGroup)
    (decided : evaluate thresholds members = some collapse) :
    CollapsedCore thresholds members (median (members.map (·.layer.x))) (median (members.map (·.layer.y)))
      (core thresholds members) := by
  obtain ⟨enough, across, down⟩ := core_of_evaluate decided
  have inner : core thresholds members ≠ [] := List.ne_nil_of_length_pos (several.trans_le enough)
  have filled : members ≠ [] := fun none => inner (by rw [core, none, List.filter_nil])
  have wide (part : Member Float → Float) : (core thresholds members).map part ≠ [] :=
    List.map_eq_nil_iff.not.mpr inner
  have near : ∀ place ∈ (core thresholds members).map (·.layer.x),
      Scalar.abs (place - median (members.map (·.layer.x))) ≤ thresholds.clusterRadius :=
    List.forall_mem_map.mpr fun member inside => (close_of_core inside).1
  have near' : ∀ place ∈ (core thresholds members).map (·.layer.y),
      Scalar.abs (place - median (members.map (·.layer.y))) ≤ thresholds.clusterRadius :=
    List.forall_mem_map.mpr fun member inside => (close_of_core inside).2
  exact ⟨⟨isMedian_median (List.map_eq_nil_iff.not.mpr filled),
      isMedian_median (List.map_eq_nil_iff.not.mpr filled)⟩,
    rfl, enough, narrow_of_spread (wide _) near across, narrow_of_spread (wide _) near' down⟩

theorem withinThresholds_of_evaluate {collapse : Collapse Float} (several : 0 < thresholds.minGroup)
    (radius : ¬ thresholds.clusterRadius ≤ 0) (decided : evaluate thresholds members = some collapse) :
    WithinThresholds thresholds members := by
  have gathered := collapsedCore_of_evaluate several decided
  obtain ⟨member, inside⟩ := List.exists_mem_of_length_pos (several.trans_le gathered.enough)
  have reach := (numbers_of_abs_sub_le (close_of_core inside).1).2.1
  exact ⟨Binary64.lt_of_not_le reach Binary64.isNumber_zero radius, _, _, _, gathered⟩

end Evaluate

end Stroke

namespace Config

theorem limits_of_accepted {config : Config Float} (accepted : config.defect? = none) :
    ¬ config.stroke.clusterRadius ≤ 0 ∧ ¬ config.stroke.maxSpread < 0 ∧ 2 ≤ config.stroke.minGroup := by
  rw [defect?] at accepted
  split at accepted
  · cases accepted
  · rename_i radius
    split at accepted
    · cases accepted
    · rename_i most
      split at accepted
      · cases accepted
      · rename_i several
        exact ⟨radius, most, Nat.le_of_not_lt several⟩

/-- Settings are loaded as they are written if they are accepted. -/
theorem load_eq_ok {σ : Type} [Host (StateM σ)] {env : Environment} {path : Option RawText}
    {config : Config Float} {before after : σ} :
    (load env path : StateM σ (Except Failure (Config Float))).run before = (.ok config, after) ↔
      (read env path : StateM σ (Except SettingsFault (Config Float))).run before = (.ok config, after) ∧
        config.defect? = none := by
  rw [load, StateT.run_bind]
  generalize (read env path : StateM σ (Except SettingsFault (Config Float))).run before = outcome
  obtain ⟨result, between⟩ := outcome
  change StateT.run _ between = _ ↔ _
  dsimp only
  cases result with
  | error fault =>
    constructor
    · rintro ⟨⟩
    · rintro ⟨⟨⟩, _⟩
  | ok written =>
    dsimp only
    cases found : written.defect? with
    | some defect =>
      constructor
      · rintro ⟨⟩
      · rintro ⟨⟨⟩, accepted⟩
        rw [found] at accepted
        cases accepted
    | none =>
      constructor
      · rintro ⟨⟩
        exact ⟨rfl, found⟩
      · rintro ⟨⟨⟩, _⟩
        rfl

/-- Settings in a file that the machine can read. -/
theorem read_of_file {machine : Machine} {path : RawText} {text : String} {config : Config Float}
    (calm : machine.faults = []) (stored : machine.disk.read path = .ok text)
    (parsed : parse text = some config) (env : Environment) :
    (read env (some path) : StateM Machine _).run machine = (.ok config, machine) := by
  have found : (Host.readText path : StateM Machine _).run machine = (.ok text, machine) := by
    obtain ⟨disk, clock, pauses, faults⟩ := machine
    obtain rfl : faults = [] := calm
    change (disk.read path, _) = _
    rw [stored]
    rfl
  change (readFile path : StateM Machine _).run machine = _
  rw [readFile, StateT.run_bind, found]
  change StateT.run _ machine = _
  dsimp only
  rw [parsed]
  rfl

end Config

namespace Stroke

/-- Whatever settings are loaded, texts that the stroke pass marks have been taken together as the settings ask
for: their class has its core within the radius, and the core is within the spread if that is a number and the
core has a finite beginning. -/
theorem withinThresholds_of_load {σ : Type} [Host (StateM σ)] {env : Environment} {path : Option RawText}
    {config : Config Float} {before after : σ}
    (loaded : (Config.load env path : StateM σ (Except Failure (Config Float))).run before =
      (.ok config, after))
    {root : Node Float} (fresh : root.Fresh) :
    2 ≤ config.stroke.minGroup ∧ (0 ≤ config.stroke.maxSpread ↔ IsNumber config.stroke.maxSpread) ∧
    ∀ way inner, (resolve config.stroke root).1.reach? way = some inner →
      ∃ outer, root.reach? way = some outer ∧
        ∀ (position : Nat) (taken : Node Float), inner.children[position]? = some taken →
          taken.layer.annotations.duplicate = true ∨ taken.layer.annotations.inferredStroke.isSome = true →
          ∃ child key, outer.children[position]? = some child ∧ key? child = some key ∧
            WithinThresholds config.stroke (fellows key 0 outer.children) := by
  obtain ⟨radius, most, several⟩ := Config.limits_of_accepted (Config.load_eq_ok.mp loaded).2
  refine ⟨several, ⟨fun above => (Binary64.le_iff.mp above).2.1, fun number =>
    Binary64.le_of_not_lt number Binary64.isNumber_zero most⟩, fun way inner reached => ?_⟩
  obtain ⟨outer, there, below⟩ := children_reached reached
  refine ⟨outer, there, fun position taken here marked => ?_⟩
  rw [below] at here
  obtain ⟨child, own, fate⟩ := fate_of_resolved here
  have blank : child.layer.annotations = .none :=
    ((reach_fresh fresh there).below (List.mem_of_getElem? own)).own
  -- a mark comes from a verdict, since nothing was noted about the node before
  have decided : ∃ key collapse, key? child = some key ∧
      verdict? config.stroke outer.children key = some collapse := by
    cases fate with
    | copy key_eq decided | survivor key_eq decided => exact ⟨_, _, key_eq, decided⟩
    | kept => simp [blank, Annotations.none] at marked
    | other =>
      split at marked
      · simp [layer_resolve, blank, Annotations.none] at marked
      · simp [blank, Annotations.none] at marked
  obtain ⟨key, collapse, key_eq, decided⟩ := decided
  refine ⟨child, key, own, key_eq, ?_⟩
  rw [verdict?] at decided
  split at decided
  · exact withinThresholds_of_evaluate (Nat.zero_lt_of_lt several) radius decided
  · cases decided

open FlatNode (letter letters badge fresh_letters collapses_letters)

/-- With the settings that hold by default, letters one behind the other are taken together. -/
theorem letters_withinThresholds :
    (Config.load ⟨[]⟩ none : StateM Machine (Except Failure (Config Float))).run (.ofDisk .empty) =
      (.ok .default, .ofDisk .empty) ∧ (badge "1" false letters).Fresh ∧
    ∃ key x y core low high,
      CollapsedCore (.default : StrokeThresholds Float) (fellows key 0 letters) x y core ∧
      Ends (core.map (·.layer.x)) low high ∧ high - low ≤ 8 := by
  have loaded : (Config.load ⟨[]⟩ none : StateM Machine (Except Failure (Config Float))).run
      (.ofDisk .empty) = (.ok .default, .ofDisk .empty) :=
    Config.load_eq_ok.mpr ⟨rfl, by decide +kernel⟩
  obtain ⟨stroke, found⟩ := collapses_letters
  have first : (resolve (Config.default : Config Float).stroke (badge "1" false letters)).1.children[0]? =
      some ((letter "10" 0).annotate fun notes => { notes with duplicate := true }) := by
    change (resolve FlatNode.flattening.stroke (badge "1" false letters)).1.children[0]? = _
    rw [badge, resolve, found]
    rfl
  obtain ⟨_, _, taken⟩ := withinThresholds_of_load loaded fresh_letters
  obtain ⟨outer, here, collapsed⟩ := taken [] _ rfl
  obtain rfl := Option.some.inj here
  obtain ⟨child, key, own, key_eq, _, x, y, core, gathered⟩ := collapsed 0 _ first (.inl rfl)
  obtain rfl := Option.some.inj own
  obtain rfl := Option.some.inj key_eq
  obtain ⟨low, high, ends, within, _⟩ := gathered.narrow.1
  have finite : isFinite low = true := by
    have all : ∀ child ∈ letters, isFinite child.layer.x = true := by decide +kernel
    obtain ⟨member, inside, rfl⟩ := List.mem_map.mp ends.low_mem
    rw [gathered.core_eq] at inside
    obtain ⟨index, child, at_index, _, rfl⟩ := mem_fellows.mp (List.mem_filter.mp inside).1
    exact all child (List.mem_of_getElem? at_index)
  have number : IsNumber (8 : Float) := by decide
  exact ⟨loaded, fresh_letters, _, x, y, core, low, high, gathered, ends, (within finite).mpr number⟩

/-- Settings with a spread that compares with nothing. -/
def looseText : String := "[stroke]\nmax_spread = nan\n"

def loose : Config Float := (Config.parse looseText).getD .default

def shelf : Machine := Machine.ofDisk ⟨[], [(["figrbx.toml"], looseText)], []⟩

theorem parse_looseText : Config.parse looseText = some loose := by
  have parsed : (Config.parse looseText).isSome = true := by decide +kernel
  obtain ⟨config, found⟩ := Option.isSome_iff_exists.mp parsed
  have same : loose = config := by rw [loose, found, Option.getD_some]
  rw [same, found]

theorem read_shelf : shelf.disk.read "figrbx.toml" = .ok looseText := by
  have place : shelf.disk.locate "figrbx.toml" = .ok ["figrbx.toml"] := rfl
  rw [Disk.read, place]
  rfl

/-- Letters that lie further apart than what is accepted. -/
def strewn : List (Node Float) :=
  [letter "1" 10, letter "2" 12, letter "3" 14, letter "4" 16, letter "5" 18, letter "6" 20]

theorem collapses_strewn : (collapses loose.stroke strewn).map
      (fun collapse => (collapse.survivor, collapse.duplicates)) = [(5, [0, 1, 2, 3, 4])] := by
  have middle : median ([10, 12, 14, 16, 18, 20] : List Float) = 15 := by
    have sorted : ([10, 12, 14, 16, 18, 20] : List Float).mergeSort (fun x y => Scalar.order x y != .gt) =
        [10, 12, 14, 16, 18, 20] := List.mergeSort_of_pairwise (by decide +kernel)
    simp only [median, sorted]
    decide +kernel
  have members : candidates 5 strewn =
      [[⟨0, (letter "1" 10).layer⟩, ⟨1, (letter "2" 12).layer⟩, ⟨2, (letter "3" 14).layer⟩,
        ⟨3, (letter "4" 16).layer⟩, ⟨4, (letter "5" 18).layer⟩, ⟨5, (letter "6" 20).layer⟩]] := rfl
  have least : loose.stroke.minGroup = 5 := by decide +kernel
  rw [collapses, least, members]
  simp only [List.filterMap_cons, List.filterMap_nil, evaluate, List.map_cons, List.map_nil,
    letter, Node.layer, Layer.plain, middle]
  decide +kernel

def page : Node Float := .container (Layer.plain "0" "page" ⟨0, 0, 100, 100⟩) ⟨.frame, none, false⟩ strewn

/-- A spread that is not a number is accepted, and then any spread is. -/
theorem strewn_collapsed :
    (Config.load ⟨[]⟩ (some "figrbx.toml") : StateM Machine (Except Failure (Config Float))).run shelf =
      (.ok loose, shelf) ∧
    (resolve loose.stroke page).2 = ⟨1, 5⟩ ∧ strewn.map (·.layer.x) = [10, 12, 14, 16, 18, 20] ∧
    ¬ (20 - 10 : Float) ≤ loose.stroke.maxSpread ∧ ¬ 0 ≤ loose.stroke.maxSpread := by
  have accepted : loose.defect? = none := by decide +kernel
  refine ⟨Config.load_eq_ok.mpr ⟨Config.read_of_file rfl read_shelf parse_looseText ⟨[]⟩, accepted⟩, ?_, rfl,
    by decide +kernel, by decide +kernel⟩
  obtain ⟨⟨_, _, stroke⟩, found, same⟩ := List.map_eq_singleton_iff.mp collapses_strewn
  obtain ⟨rfl, rfl⟩ := Prod.mk.inj same
  rw [page, resolve, found]
  rfl

end Stroke
end DesignCompiler
