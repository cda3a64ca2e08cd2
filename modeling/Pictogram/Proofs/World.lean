import Pictogram.World

/-!
# Work on a machine in memory

What work does to the files of a world, put together from its steps.  Writing a
text or a line of the log leaves the files alone.
-/

namespace Pictogram
namespace World

/-- Work that can be given up, on a machine in memory. -/
abbrev Task := ExceptT String (StateM World)

/-- From every world with one disk, the work has a result and leaves another disk. -/
def Ends {α : Type} (task : Task α) (before : Disk) (value : α) (after : Disk) : Prop :=
  ∀ world : World, world.disk = before →
    ∃ later : World, task.run.run world = (.ok value, later) ∧ later.disk = after

variable {α β : Type} {before middle after disk : Disk}

theorem Ends.pure (value : α) (disk : Disk) : Ends (Pure.pure value) disk value disk :=
  fun world isDisk => ⟨world, rfl, isDisk⟩

/-- Work that goes on where other work has ended ends where it leads. -/
theorem Ends.bind
    {first : Task α}
    {next : α → Task β}
    {value : α}
    {result : β}
    (firstEnds : Ends first before value middle)
    (nextEnds : Ends (next value) middle result after) :
    Ends (first >>= next) before result after := by
  intro world isDisk
  obtain ⟨between, ran, isMiddle⟩ := firstEnds world isDisk
  obtain ⟨later, ranOn, isAfter⟩ := nextEnds between isMiddle
  refine ⟨later, ?_, isAfter⟩
  rw [ExceptT.run_bind, StateT.run_bind, ran]
  exact ranOn

/-- Work on each of some things that leaves the disk as it is. -/
theorem Ends.mapM
    {step : α → Task β}
    {value : α → β}
    {list : List α}
    (each : ∀ thing ∈ list, Ends (step thing) disk (value thing) disk) :
    Ends (list.mapM step) disk (list.map value) disk := by
  induction list with
  | nil =>
      rw [List.mapM_nil]
      exact .pure [] disk
  | cons thing list inductionHypothesis =>
      obtain ⟨here, later⟩ := List.forall_mem_cons.mp each
      rw [List.mapM_cons]
      exact .bind here (.bind (inductionHypothesis later) (.pure _ disk))

/-- Work that is done for each of a list and leaves the disk alone leaves it alone. -/
theorem Ends.forM
    {step : α → Task PUnit}
    (each : ∀ thing, Ends (step thing) disk ⟨⟩ disk)
    (list : List α) :
    Ends (list.forM step) disk ⟨⟩ disk := by
  induction list with
  | nil => exact .pure () disk
  | cons thing list inductionHypothesis => exact .bind (each thing) inductionHypothesis

/-! ## Requests -/

theorem ends_say (text : String) (disk : Disk) : Ends (Host.say text) disk ⟨⟩ disk :=
  fun _ isDisk => ⟨_, rfl, isDisk⟩

theorem ends_complain (text : String) (disk : Disk) : Ends (Host.complain text) disk ⟨⟩ disk :=
  fun _ isDisk => ⟨_, rfl, isDisk⟩

theorem ends_recordAll (filter : Log.Filter) (events : Array Event) (disk : Disk) :
    Ends (Host.recordAll filter events) disk ⟨⟩ disk := by
  refine .forM (fun event => ?_) events.toList
  unfold Host.record
  split
  · intro world isDisk
    exact ⟨_, rfl, isDisk⟩
  · exact .pure () disk

theorem ends_readText {path : Path} {source : String} (found : disk.readText path = .ok source) :
    Ends (Host.readText path) disk (.ok source) disk := by
  rintro world rfl
  exact ⟨world, by rw [← found]; rfl, rfl⟩

/-- A change of the disk that is not refused is made. -/
theorem ends_change {f : Disk → Except FileFault Disk} (changed : f before = .ok after) :
    Ends (ExceptT.lift (change f)) before (.ok ()) after := by
  rintro world rfl
  have ran : (change f).run world = (.ok (), { world with disk := after }) := by
    simp only [change, StateT.run_bind, StateT.run_get, pure_bind, changed]
    rfl
  refine ⟨{ world with disk := after }, ?_, rfl⟩
  rw [ExceptT.run_lift, StateT.run_map, ran]
  rfl

theorem ends_makeDirectories {path : Path} (made : before.makeDirectories path = .ok after) :
    Ends (Host.makeDirectories path) before (.ok ()) after :=
  ends_change made

theorem ends_writeBytes
    {path : Path}
    {content : ByteArray}
    (written : before.writeBytes path content = .ok after) :
    Ends (Host.writeBytes path content) before (.ok ()) after :=
  ends_change written

end World
end Pictogram
