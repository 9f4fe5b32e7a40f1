import TokenPumper.Keys.Batch

namespace TokenPumper
open Effect FileTree Batch
set_option autoImplicit true

/-- Surroundings in which no system call fails of itself, on one day. -/
structure Env.Reliable (env : Env) (day : String) : Prop where
  clock : ∀ t, ∃ secs, env.clock t = some secs ∧ formatYmd (secs.toNat / 86400) = some day
  stat : ∀ t, env.statFails t = false
  io : ∀ t, env.ioFault t = none
  seed : ∀ t, env.seed t ≠ none

theorem Env.calm_reliable (h : formatYmd (secs.toNat / 86400) = some day) (kp : SigningKey) :
    (Env.calm secs kp).Reliable day where
  clock _ := ⟨secs, rfl, h⟩
  stat _ := rfl
  io _ := rfl
  seed _ := Option.some_ne_none kp

def CompleteOn (disk : Tree) (dir : Path) (count : Nat) : Prop :=
  (disk.lookup dir).isSome ∧ ∀ path ∈ keyPaths dir count, (disk.lookup path).isSome

instance (disk : Tree) (dir : Path) (count : Nat) : Decidable (CompleteOn disk dir count) :=
  inferInstanceAs (Decidable (_ ∧ _))

variable {env : Env} {day : String} {E : World → Prop} {d : Tree} {path dir keysDir : Path}

theorem reliable_fileExists (hr : env.Reliable day) :
    Triple env (·.disk = d) (fileExists path)
      (fun there w => w.disk = d ∧ there = (d.lookup path).isSome) E := by
  refine Triple.bind (Q := fun fails w => w.disk = d ∧ fails = false) ?_ fun fails => ?_
  · exact fun w hw => ⟨hw, hr.stat w.tick⟩
  · rintro w ⟨rfl, rfl⟩
    exact ⟨rfl, rfl⟩

theorem reliable_syscall (hr : env.Reliable day) :
    Triple env (·.disk = d) syscall (fun _ w => w.disk = d) E := by
  refine Triple.bind (Q := fun fault w => w.disk = d ∧ fault = none) ?_ fun fault => ?_
  · exact fun w hw => ⟨hw, hr.io w.tick⟩
  · rintro w ⟨hw, rfl⟩
    exact hw

theorem reliable_today (hr : env.Reliable day) :
    Triple env (·.disk = d) today (fun day' w => w.disk = d ∧ day' = day) E := by
  refine Triple.bind (Q := fun clock w => w.disk = d ∧ ∃ secs, clock = some secs ∧
    formatYmd (secs.toNat / 86400) = some day) ?_ fun clock => ?_
  · exact fun w hw => ⟨hw, hr.clock w.tick⟩
  · rintro w ⟨hw, secs, rfl, hday⟩
    have hrun : orPanic (formatYmd (secs.toNat / 86400)) env w = (.ok day, w) := by
      rw [hday]
      rfl
    dsimp only
    rw [bind_run_ok hrun]
    exact ⟨hw, rfl⟩

theorem reliable_todayDir (hr : env.Reliable day) (keysDir : Path) :
    Triple env (·.disk = d) (todayDir keysDir) (fun dir w => w.disk = d ∧ dir = day :: keysDir)
      E := by
  refine Triple.bind (reliable_today hr) fun day' => Triple.pure ?_
  rintro w ⟨hw, rfl⟩
  exact ⟨hw, rfl⟩

theorem reliable_allExist (hr : env.Reliable day) (paths : List Path) :
    Triple env (·.disk = d) (allExist paths)
      (fun all w => w.disk = d ∧ (all = true ↔ ∀ path ∈ paths, (d.lookup path).isSome)) E := by
  induction paths with
  | nil =>
    exact Triple.pure fun w hw => ⟨hw, iff_of_true rfl fun path hp => absurd hp List.not_mem_nil⟩
  | cons path paths ih =>
    apply Triple.bind (reliable_fileExists hr)
    intro there
    apply Triple.assume
    intro hpath
    split
    · rename_i hthere
      refine ih.conseq (fun _ h => h) ?_ fun _ h => h
      rintro all w ⟨hw, hall⟩
      refine ⟨hw, ?_⟩
      rw [hall, List.forall_mem_cons, ← hpath, hthere]
      simp
    · rename_i hthere
      refine Triple.pure fun w hw => ⟨hw, ?_⟩
      rw [List.forall_mem_cons, ← hpath]
      simp [hthere]

theorem reliable_isComplete (hr : env.Reliable day) (count : Nat) :
    Triple env (·.disk = d) (isComplete dir count)
      (fun all w => w.disk = d ∧ (all = true ↔ CompleteOn d dir count)) E := by
  apply Triple.bind (reliable_fileExists hr)
  intro there
  apply Triple.assume
  intro hdir
  split
  · rename_i hthere
    refine (reliable_allExist hr _).conseq (fun _ h => h) ?_ fun _ h => h
    rintro all w ⟨hw, hall⟩
    refine ⟨hw, ?_⟩
    rw [hall, CompleteOn, ← hdir, hthere]
    simp
  · rename_i hthere
    refine Triple.pure fun w hw => ⟨hw, ?_⟩
    rw [CompleteOn, ← hdir]
    simp [hthere]

variable [Ed25519]

theorem reliable_storageRead (hr : env.Reliable day) (h : keyAt d path = some kp) :
    Triple env (·.disk = d) (Storage.read path) (fun kp' w => w.disk = d ∧ kp' = kp) E := by
  rw [keyAt] at h
  split at h
  case h_2 => cases h
  rename_i bytes hfile
  obtain ⟨text, htext, hkp⟩ := Option.bind_eq_some_iff.1 h
  refine Triple.bind (Q := fun text' w => w.disk = d ∧ text' = text) ?_ fun text' => ?_
  · refine triple_withContext (Triple.bind (reliable_syscall hr) fun _ => ?_)
    apply Triple.bind_current
    intro w hw
    rw [hw, hfile]
    dsimp only
    rw [htext]
    exact Triple.pure fun s hs => ⟨hs ▸ hw, rfl⟩
  · apply Triple.assume
    intro htext'
    rw [htext', hkp]
    exact Triple.pure fun w hw => ⟨hw, rfl⟩

theorem reliable_ensure (hr : env.Reliable day) (h : keyAt d path = some kp) :
    Triple env (·.disk = d) (Singleton.ensure path)
      (fun r w => w.disk = d ∧ r = (kp, .loaded)) E := by
  have hthere := isSome_of_keyAt h
  refine Triple.bind (reliable_fileExists hr) fun there => Triple.assume fun hpath => ?_
  rw [hpath, hthere, if_pos rfl]
  refine Triple.bind (reliable_storageRead hr h) fun kp' => Triple.assume fun hkp => ?_
  rw [hkp]
  exact Triple.pure fun w hw => ⟨hw, rfl⟩

theorem reliable_load (hr : env.Reliable day) (h : HoldKeys dir kps d) :
    Triple env (·.disk = d) (load dir kps.length) (fun kps' w => w.disk = d ∧ kps' = kps) E := by
  refine (Triple.each (fun paths kps' w => w.disk = d ∧ kps' = kps.take paths.length) ?_).conseq
    (fun w hw => ⟨hw, rfl⟩) ?_ fun _ h => h
  · intro paths path rest kps' hsplit
    have hat : (keyPaths dir kps.length)[paths.length]? = some path := by
      rw [hsplit, List.getElem?_append_right (Nat.le_refl _), Nat.sub_self, List.getElem?_cons_zero]
    have hlt : paths.length < kps.length := by
      have hlen := (List.getElem?_eq_some_iff.1 hat).1
      rwa [length_keyPaths] at hlen
    have hkey : keyAt d path = some kps[paths.length] := by
      rw [keyPaths_getElem? dir kps.length paths.length hat]
      exact h paths.length _ (List.getElem?_eq_getElem hlt)
    refine Triple.assume fun hkps => (reliable_storageRead hr hkey).conseq (fun _ h => h) ?_
      fun _ h => h
    rintro kp w ⟨hw, rfl⟩
    refine ⟨hw, ?_⟩
    rw [hkps, List.length_append, List.length_singleton, List.take_add_one,
      List.getElem?_eq_getElem hlt]
    rfl
  · rintro kps' w ⟨hw, rfl⟩
    refine ⟨hw, ?_⟩
    rw [length_keyPaths, List.take_length]

theorem reliable_resolveToday (hr : env.Reliable day) (hdir : (d.lookup (day :: keysDir)).isSome)
    (h : HoldKeys (day :: keysDir) kps d) :
    Triple env (·.disk = d) (resolveToday keysDir kps.length)
      (fun r w => w.disk = d ∧ r = (kps, .loaded)) E := by
  have hcomplete : CompleteOn d (day :: keysDir) kps.length := by
    refine ⟨hdir, fun path hp => ?_⟩
    obtain ⟨i, hi⟩ := List.mem_iff_getElem?.1 hp
    have hlt : i < kps.length := by
      have hlen := (List.getElem?_eq_some_iff.1 hi).1
      rwa [length_keyPaths] at hlen
    have hkey := h i _ (List.getElem?_eq_getElem hlt)
    rw [← keyPaths_getElem? _ _ i hi] at hkey
    exact isSome_of_keyAt hkey
  refine Triple.bind (reliable_todayDir hr keysDir) fun dir => Triple.assume fun hd => ?_
  rw [hd]
  refine Triple.bind (reliable_isComplete hr _) fun all => Triple.assume fun hall => ?_
  rw [hall.2 hcomplete, if_pos rfl]
  refine Triple.bind (reliable_load hr h) fun kps' => Triple.assume fun hkps => ?_
  rw [hkps]
  exact Triple.pure fun w hw => ⟨hw, rfl⟩

end TokenPumper
