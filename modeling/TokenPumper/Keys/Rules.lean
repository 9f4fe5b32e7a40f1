import TokenPumper.Keys.Storage
import TokenPumper.Keys.Time

namespace TokenPumper
open Effect FileTree
set_option autoImplicit true

/-- A condition on the disk and the log; it does not mention the tick. -/
abbrev Cond := Tree → List Event → Prop

def on (D : Cond) (w : World) : Prop := D w.disk w.log

namespace Cond

/-- Adding a node to the disk does not spoil the condition. -/
def AddStable (D : Cond) : Prop :=
  ∀ ⦃disk log⦄ (name : String) (dir : Path) (node : Node) (hd : disk.IsDir dir)
    (h : disk.lookup (name :: dir) = none), D disk log → D (disk.add name dir node hd h) log

def DirStable (D : Cond) : Prop :=
  ∀ ⦃disk log⦄ (name : String) (dir : Path) (hd : disk.IsDir dir)
    (h : disk.lookup (name :: dir) = none), D disk log → D (disk.add name dir .dir hd h) log

/-- Removing a file turns the one condition into the other. -/
def Removes (D D' : Cond) (path : Path) : Prop :=
  ∀ ⦃disk log bytes⦄ (h : disk.lookup path = some (.file bytes)), D disk log →
    D' (disk.removeFile path h) (log ++ [.removed path bytes])

variable {D D' : Cond}

theorem AddStable.dirStable (h : D.AddStable) : D.DirStable :=
  fun _ _ name dir hd hn hD => h name dir .dir hd hn hD

theorem AddStable.and (h : D.AddStable) (h' : D'.AddStable) :
    AddStable fun disk log => D disk log ∧ D' disk log :=
  fun _ _ name dir node hd hn hD => ⟨h name dir node hd hn hD.1, h' name dir node hd hn hD.2⟩

theorem Removes.and (h : D.Removes D path) (h' : D'.Removes D' path) :
    Removes (fun disk log => D disk log ∧ D' disk log) (fun disk log => D disk log ∧ D' disk log)
      path :=
  fun _ _ _ hf hD => ⟨h hf hD.1, h' hf hD.2⟩

end Cond

section Primitives
variable {env : Env} {D D' : Cond} {E : World → Prop} {path dir : Path}

theorem triple_ask {question : Env → Nat → α} :
    Triple env (on D) (ask question) (fun _ => on D) E := fun _ hw => hw

theorem keeps_ask {question : Env → Nat → α} : Keeps env (on D) (ask question) := triple_ask

theorem triple_record (h : ∀ disk log, D disk log → D' disk (log ++ [e])) :
    Triple env (on D) (record e) (fun _ => on D') E := fun w hw => h w.disk w.log hw

theorem triple_orPanic {o : Option α} (hE : ∀ w, on D w → E w) :
    Triple env (on D) (orPanic o) (fun a => on fun disk log => D disk log ∧ o = some a) E := by
  cases o with
  | none => exact Triple.fail hE
  | some a => exact Triple.pure fun w hw => ⟨hw, rfl⟩

theorem triple_syscall (hE : ∀ w, on D w → E w) : Triple env (on D) syscall (fun _ => on D) E := by
  apply Triple.bind triple_ask
  intro fault
  cases fault with
  | none => exact Triple.pure fun w hw => hw
  | some reason => exact Triple.fail hE

theorem triple_call {f : World → Run α} {Q : α → World → Prop} (hE : ∀ w, on D w → E w)
    (h : ∀ w, on D w → Triple env (fun s => s = w) (f w) Q E) :
    Triple env (on D) (do syscall; let w ← current; f w) Q E := by
  apply Triple.bind (triple_syscall hE)
  intro _
  exact Triple.bind_current h

theorem triple_rpc {question : Env → Nat → Reply α} (hE : ∀ w, on D w → E w) :
    Triple env (on D) (rpc question) (fun _ => on D) E :=
  Triple.bind triple_ask fun _ => Triple.lift (fun _ _ _ hw => hw) hE

theorem triple_fileExists :
    Triple env (on D) (fileExists path)
      (fun there => on fun disk log => D disk log ∧ (there = true → (disk.lookup path).isSome))
      E := by
  apply Triple.bind triple_ask
  intro fails w hw
  refine ⟨hw, fun h => ?_⟩
  exact (Bool.and_eq_true_iff.1 h).2

theorem triple_readToString (hE : ∀ w, on D w → E w) :
    Triple env (on D) (readToString path)
      (fun text => on fun disk log => D disk log ∧
        ∃ bytes, disk.lookup path = some (.file bytes) ∧ Text.ofUtf8 bytes = some text) E := by
  apply triple_call hE
  intro w hw
  split
  case h_1 => exact Triple.fail_at (hE w hw)
  case h_2 => exact Triple.fail_at (hE w hw)
  case h_3 bytes hfile =>
    split
    · rename_i text htext
      refine Triple.pure ?_
      rintro s rfl
      exact ⟨hw, bytes, hfile, htext⟩
    · exact Triple.fail_at (hE w hw)

theorem triple_makeDir_of
    (hD : ∀ ⦃disk log⦄ (hd : disk.IsDir dir) (h : disk.lookup (name :: dir) = none), D disk log →
      D (disk.add name dir .dir hd h) log) (hE : ∀ w, on D w → E w) :
    Triple env (on D) (makeDir name dir)
      (fun _ => on fun disk log => D disk log ∧ disk.IsDir (name :: dir)) E := by
  apply triple_call hE
  intro w hw
  split
  case h_1 hdir =>
    refine Triple.pure ?_
    rintro s rfl
    exact ⟨hw, .inr hdir⟩
  case h_2 => exact Triple.fail_at (hE w hw)
  case h_3 hnew =>
    split
    · rename_i hd
      refine Triple.update ?_
      rintro s rfl
      exact ⟨hD hd hnew hw, .inr (Tree.lookup_add_self hd hnew)⟩
    · exact Triple.fail_at (hE w hw)

theorem triple_createDirAll_of (path : Path)
    (hD : ∀ ⦃name dir⦄, name :: dir <:+ path → ∀ ⦃disk log⦄ (hd : disk.IsDir dir)
      (h : disk.lookup (name :: dir) = none), D disk log → D (disk.add name dir .dir hd h) log)
    (hE : ∀ w, on D w → E w) :
    Triple env (on D) (createDirAll path)
      (fun _ => on fun disk log => D disk log ∧ disk.IsDir path) E := by
  induction path with
  | nil => exact Triple.pure fun w hw => ⟨hw, .inl rfl⟩
  | cons name dir ih =>
    apply Triple.bind (ih fun n d hs => hD (hs.trans (List.suffix_cons name dir)))
    intro _
    exact (triple_makeDir_of (hD List.suffix_rfl) hE).conseq (fun w hw => hw.1) (fun _ _ h => h)
      fun _ h => h

/-- Whatever is kept by adding directories is kept, and the path is a directory after it. -/
theorem triple_createDirAll (hD : D.DirStable) (hE : ∀ w, on D w → E w) (path : Path) :
    Triple env (on D) (createDirAll path)
      (fun _ => on fun disk log => D disk log ∧ disk.IsDir path) E :=
  triple_createDirAll_of path (fun name dir _ _ _ hd h hw => hD name dir hd h hw) hE

/-- A new file is written whole, or in part if the system fails in between, or not at all. -/
theorem triple_writeNew_of
    (hfull : ∀ {disk log name dir} (hd : disk.IsDir dir) (h : disk.lookup (name :: dir) = none),
      path = name :: dir → D disk log → D' (disk.add name dir (.file bytes) hd h) log)
    (htorn : ∀ {disk log name dir} (kept t : Nat) (hd : disk.IsDir dir)
      (h : disk.lookup (name :: dir) = none), env.ioFault t ≠ none → path = name :: dir →
      D disk log → ∀ tick, E ⟨tick, disk.add name dir (.file (bytes.take kept)) hd h, log⟩)
    (hE : ∀ w, on D w → E w) :
    Triple env (on D) (writeNew path bytes opening writing) (fun _ => on D') E := by
  apply Triple.bind triple_ask
  intro fault
  apply Triple.bind_current
  intro w hw
  split
  · exact Triple.fail_at (hE w hw)
  · exact Triple.fail_at (hE w hw)
  · rename_i name dir
    split
    · rename_i hd
      split
      · rename_i hnew
        let same (s : World) : Prop := s.disk = w.disk ∧ s.log = w.log
        refine Triple.bind (Q := fun failing s => same s ∧ ∃ t, failing = env.ioFault t) ?_
          fun failing => ?_
        · rintro s rfl
          exact ⟨⟨rfl, rfl⟩, s.tick, rfl⟩
        refine Triple.bind (Q := fun _ s => same s ∧ ∃ t, failing = env.ioFault t) ?_ fun kept => ?_
        · exact fun s hs => hs
        cases failing with
        | none =>
          refine Triple.update ?_
          rintro ⟨tick, disk, log⟩ ⟨⟨hdisk, hlog⟩, -⟩
          obtain rfl : log = w.log := hlog
          exact hfull hd hnew rfl hw
        | some reason =>
          refine Triple.bind (Q := fun _ => E) (Triple.update ?_) fun _ =>
            Triple.fail fun s hs => hs
          rintro ⟨tick, disk, log⟩ ⟨⟨hdisk, hlog⟩, t, ht⟩
          obtain rfl : log = w.log := hlog
          have hfault : env.ioFault t ≠ none := by
            rw [← ht]
            exact Option.some_ne_none reason
          exact htorn kept t hd hnew hfault rfl hw tick
      · exact Triple.fail_at (hE w hw)
    · exact Triple.fail_at (hE w hw)

theorem triple_writeNew (hD : D.AddStable) (hE : ∀ w, on D w → E w) :
    Triple env (on D) (writeNew path bytes opening writing)
      (fun _ => on fun disk log => D disk log ∧ disk.lookup path = some (.file bytes)) E := by
  refine triple_writeNew_of ?_ ?_ hE
  · rintro disk log name dir hd hnew rfl hw
    exact ⟨hD name dir _ hd hnew hw, Tree.lookup_add_self hd hnew⟩
  · rintro disk log name dir kept t hd hnew - rfl hw tick
    exact hE _ (hD name dir _ hd hnew hw)

theorem triple_removeFile (hD : D.Removes D' path) (hE : ∀ w, on D w → E w) :
    Triple env (on D) (removeFile path) (fun _ => on D') E := by
  apply triple_call hE
  intro w hw
  split
  case h_1 => exact Triple.fail_at (hE w hw)
  case h_2 => exact Triple.fail_at (hE w hw)
  case h_3 bytes hfile =>
    rintro s rfl
    exact hD hfile hw

theorem triple_readDir (hE : ∀ w, on D w → E w) :
    Triple env (on D) (readDir dir)
      (fun names => on fun disk log => D disk log ∧ names = disk.entries dir) E := by
  apply triple_call hE
  intro w hw
  split
  · refine Triple.pure ?_
    rintro s rfl
    exact ⟨hw, rfl⟩
  · split <;> exact Triple.fail_at (hE w hw)

theorem triple_withContext (h : Triple env P x Q E) : Triple env P (withContext message x) Q E :=
  h.mapFailure

end Primitives
end TokenPumper
