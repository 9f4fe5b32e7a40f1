import TokenPumper.Keys.Reliable

namespace TokenPumper
open LittleEndian Effect FileTree Batch
set_option autoImplicit true

/-- Every `*.json` file of the directory is still there with its content. -/
def KeyFilesKept (dir : Path) (before after : Tree) : Prop :=
  ∀ name bytes, isJson name → before.lookup (name :: dir) = some (.file bytes) →
    after.lookup (name :: dir) = some (.file bytes)

/-- The first `*.json` entry that the directory lists, if any, is not a file. -/
def NoFileFirst (disk : Tree) (dir : Path) : Prop :=
  ∀ name ∈ (disk.entries dir).find? isJson, disk.lookup (name :: dir) = some .dir

instance (disk : Tree) (dir : Path) : Decidable (NoFileFirst disk dir) :=
  match h : (disk.entries dir).find? isJson with
  | none => isTrue fun name hn => by
    rw [h] at hn
    cases hn
  | some name =>
    decidable_of_iff (disk.lookup (name :: dir) = some .dir) (by simp [NoFileFirst, h])

variable {env : Env} {D : Cond} {E : World → Prop} {d : Tree} {path dir keysDir : Path}
  {name : String}

theorem keyFilesKept_addStable (dir : Path) (before : Tree) :
    Cond.AddStable fun disk _ => KeyFilesKept dir before disk :=
  fun _ _ _ _ _ hd hnew hk name bytes hjson hfile =>
    Tree.lookup_add_of_some hd hnew (hk name bytes hjson hfile)

theorem triple_createDirAll_isDir (h : d.IsDir path)
    (hcall : Triple env (·.disk = d) syscall (fun _ w => w.disk = d) E) :
    Triple env (·.disk = d) (createDirAll path) (fun _ w => w.disk = d) E := by
  induction path with
  | nil => exact Triple.pure fun w hw => hw
  | cons name dir ih =>
    have hnode : d.lookup (name :: dir) = some .dir := by
      rcases h with h | h
      · cases h
      · exact h
    apply Triple.bind (ih (Tree.isDir_of_isSome (by rw [hnode]; rfl)))
    intro _
    apply Triple.bind hcall
    intro _
    apply Triple.bind_current
    intro w hw
    obtain rfl : w.disk = d := hw
    split
    case h_1 => exact Triple.pure fun s hs => hs ▸ rfl
    case h_2 hfile => cases hnode.symm.trans hfile
    case h_3 hnew => cases hnode.symm.trans hnew

theorem triple_clearEntry_dir (hjson : isJson name) (h : d.lookup (name :: dir) = some .dir)
    (hcall : Triple env (·.disk = d) syscall (fun _ w => w.disk = d) (·.disk = d)) :
    Triple env (·.disk = d) (clearEntry dir name) Q (·.disk = d) := by
  apply Triple.bind hcall
  intro _
  rw [if_pos hjson]
  apply Triple.bind hcall
  intro _
  apply Triple.bind_current
  intro w hw
  split
  case h_1 => exact Triple.fail fun s hs => hs ▸ hw
  case h_2 => exact Triple.fail fun s hs => hs ▸ hw
  case h_3 bytes hfile =>
    have hd : w.disk.lookup (name :: dir) = some .dir := by
      obtain rfl : w.disk = d := hw
      exact h
    cases hd.symm.trans hfile

theorem triple_clearEntry_other (hjson : ¬isJson name)
    (hcall : Triple env (·.disk = d) syscall (fun _ w => w.disk = d) E) :
    Triple env (·.disk = d) (clearEntry dir name) (fun _ w => w.disk = d) E := by
  apply Triple.bind hcall
  intro _
  rw [if_neg hjson]
  exact Triple.pure fun w hw => hw

/-- A directory whose first `*.json` entry is no file is left as it is, or the clearing fails. -/
theorem triple_clearJsons_noFileFirst (h : NoFileFirst d dir) :
    Triple env (on fun disk _ => disk = d) (clearJsons dir) (fun _ w => w.disk = d)
      (fun w => w.disk = d) := by
  have hcall : Keeps env (on fun disk _ => disk = d) syscall := triple_syscall fun _ hw => hw
  apply Triple.bind triple_fileExists
  intro there
  split
  · refine Triple.bind (Q := fun names w => w.disk = d ∧ names = d.entries dir) ?_ fun names => ?_
    · refine (triple_withContext (triple_readDir (D := fun disk _ => disk = d) fun _ h => h)).conseq
        (fun w hw => hw.1) ?_ fun _ h => h
      rintro names w ⟨hw, hnames⟩
      obtain rfl : w.disk = d := hw
      exact ⟨rfl, hnames⟩
    · apply Triple.assume
      intro hnames
      refine Triple.bind (Q := fun _ w => w.disk = d) ?_ fun _ => Triple.pure fun w hw => hw
      refine (Triple.each (fun names _ w => w.disk = d ∧ ∀ n ∈ names, ¬isJson n) ?_).conseq
        (fun w hw => ⟨hw, fun n hn => absurd hn List.not_mem_nil⟩) (fun _ w hw => hw.1)
        fun _ h => h
      intro before n rest _ hsplit
      apply Triple.assume
      intro hbefore
      by_cases hn : isJson n
      · have hfirst : (d.entries dir).find? isJson = some n := by
          rw [← hnames, hsplit, List.find?_eq_some_iff_append]
          exact ⟨hn, before, rest, rfl, by simpa using hbefore⟩
        exact triple_clearEntry_dir hn (h n hfirst) hcall
      · refine (triple_clearEntry_other hn hcall).conseq (fun _ hw => hw) (fun _ w hw => ⟨hw, ?_⟩)
          fun _ h => h
        rw [List.forall_mem_append]
        exact ⟨hbefore, List.forall_mem_singleton.2 hn⟩
  · exact Triple.pure fun w hw => hw.1

theorem keyFilesKept_of_eq {w : World} (h : w.disk = d) :
    on (fun disk _ => KeyFilesKept dir d disk) w :=
  fun _ _ _ hfile => (congrArg (Tree.lookup · _) h).trans hfile

def Lost (path : Path) (bytes : List UInt8) : Cond := fun disk _ =>
  disk.lookup path ≠ some (.file bytes)

theorem lost_removes (path removed : Path) (bytes : List UInt8) :
    (Lost path bytes).Removes (Lost path bytes) removed := by
  intro disk log other hf h
  by_cases hp : path = removed
  · subst hp
    rw [Lost, Tree.lookup_removeFile_self hf]
    exact nofun
  · rwa [Lost, Tree.lookup_removeFile_of_ne hf hp]

/-- What stands before the first place of a value stands in the front part of any split there. -/
theorem mem_of_before_first {x y : α} (h : before ++ x :: rest = as ++ y :: bs) (hy : y ∉ before)
    (hne : x ≠ y) : x ∈ as := by
  rcases List.append_eq_append_iff.1 h with ⟨c, rfl, hc⟩ | ⟨c, rfl, hc⟩
  · cases c with
    | nil => exact absurd (List.cons.inj hc).1 hne
    | cons z c =>
      obtain rfl : x = z := (List.cons.inj hc).1
      exact List.mem_append_right _ List.mem_cons_self
  · cases c with
    | nil => exact absurd (List.cons.inj hc).1.symm hne
    | cons z c =>
      obtain rfl : y = z := (List.cons.inj hc).1
      exact absurd (List.mem_append_right _ List.mem_cons_self) hy

theorem triple_clearEntry_first (hr : env.Reliable day) (hjson : isJson name)
    (h : d.lookup (name :: dir) = some (.file bytes)) :
    Triple env (·.disk = d) (clearEntry dir name) (fun _ => on (Lost (name :: dir) bytes)) E := by
  apply Triple.bind (reliable_syscall hr)
  intro _
  rw [if_pos hjson]
  apply Triple.bind (reliable_syscall hr)
  intro _
  apply Triple.bind_current
  intro w hw
  obtain rfl : w.disk = d := hw
  split
  case h_1 hnone => cases h.symm.trans hnone
  case h_2 hdir => cases h.symm.trans hdir
  case h_3 bytes' hfile =>
    rintro s rfl
    change (s.disk.removeFile (name :: dir) hfile).lookup (name :: dir) ≠ _
    rw [Tree.lookup_removeFile_self]
    exact nofun

theorem triple_clearJsons_lost (hr : env.Reliable day) (hdir : (d.lookup dir).isSome)
    (hfirst : (d.entries dir).find? isJson = some name)
    (h : d.lookup (name :: dir) = some (.file bytes)) :
    Triple env (·.disk = d) (clearJsons dir) (fun _ => on (Lost (name :: dir) bytes))
      (on (Lost (name :: dir) bytes)) := by
  obtain ⟨hjson, as, bs, hsplit, has⟩ := List.find?_eq_some_iff_append.1 hfirst
  have hisDir : d.IsDir dir := Tree.isDir_of_isSome (by rw [h]; rfl)
  apply Triple.bind (reliable_fileExists hr)
  intro there
  apply Triple.assume
  intro hthere
  rw [hthere, hdir, if_pos rfl]
  refine Triple.bind (Q := fun names w => w.disk = d ∧ names = d.entries dir) ?_ fun names =>
    Triple.assume fun hnames => ?_
  · refine triple_withContext (Triple.bind (reliable_syscall hr) fun _ => ?_)
    apply Triple.bind_current
    intro w hw
    obtain rfl : w.disk = d := hw
    rw [if_pos hisDir]
    exact Triple.pure fun s hs => hs ▸ ⟨rfl, rfl⟩
  · refine Triple.bind (Q := fun _ => on (Lost (name :: dir) bytes)) ?_ fun _ =>
      Triple.pure fun w hw => hw
    refine (Triple.each (fun before _ w => (name ∈ before → on (Lost (name :: dir) bytes) w) ∧
      (name ∉ before → w.disk = d)) ?_).conseq
      (fun w hw => ⟨fun hn => absurd hn List.not_mem_nil, fun _ => hw⟩) ?_ fun _ hw => hw
    · intro before n rest _ hn
      by_cases hin : name ∈ before
      · refine (triple_clearEntry (fun _ => lost_removes (name :: dir) (n :: dir) bytes)
          fun _ hw => hw).conseq (fun w hw => hw.1 hin)
          (fun _ w hw => ⟨fun _ => hw, fun hnot => ?_⟩) fun _ hw => hw
        exact absurd (List.mem_append_left _ hin) hnot
      · by_cases heq : n = name
        · subst heq
          refine (triple_clearEntry_first hr hjson h).conseq (fun w hw => hw.2 hin)
            (fun _ w hw => ⟨fun _ => hw, fun hnot => ?_⟩) fun _ hw => hw
          exact absurd (List.mem_append_right _ List.mem_cons_self) hnot
        · have hother : ¬isJson n := by
            have hmem := mem_of_before_first (hn.symm.trans (hnames.trans hsplit)) hin heq
            simpa using has n hmem
          refine (triple_clearEntry_other hother (reliable_syscall hr)).conseq
            (fun w hw => hw.2 hin) (fun _ w hw => ⟨fun hmem => ?_, fun _ => hw⟩) fun _ hw => hw
          rcases List.mem_append.1 hmem with hmem | hmem
          · exact absurd hmem hin
          · exact absurd (List.mem_singleton.1 hmem).symm heq
    · intro _ w hw
      refine hw.1 ?_
      rw [hnames, hsplit]
      exact List.mem_append_right _ List.mem_cons_self

section Resolve
variable [Ed25519]

theorem triple_createFresh_kept (count : Nat) (h : NoFileFirst d dir) :
    Triple env (·.disk = d) (createFresh dir count)
      (fun _ => on fun disk _ => KeyFilesKept dir d disk)
      (on fun disk _ => KeyFilesKept dir d disk) := by
  by_cases hd : d.IsDir dir
  · have hfail : ∀ w : World, w.disk = d → on (fun disk _ => KeyFilesKept dir d disk) w :=
      fun w hw => keyFilesKept_of_eq hw
    have hcall : Triple env (on fun disk _ => disk = d) syscall
        (fun _ => on fun disk _ => disk = d) (on fun disk _ => KeyFilesKept dir d disk) :=
      triple_syscall hfail
    apply Triple.bind (triple_withContext (triple_createDirAll_isDir hd hcall))
    intro _
    refine Triple.bind ((triple_clearJsons_noFileFirst h).conseq (fun _ hw => hw) (fun _ _ hw => hw)
      hfail) fun _ => ?_
    refine (triple_eachKey count (fun _ _ => triple_createBatchKey)
      (keyFilesKept_addStable dir d) fun _ hk => hk).conseq hfail ?_ fun _ hk => hk
    exact fun _ w hw => hw.1
  · -- no directory, no key files in it
    have hall : ∀ w, on (fun disk _ => KeyFilesKept dir d disk) w := by
      intro w name bytes _ hfile
      exact absurd (Tree.isDir_of_isSome (by rw [hfile]; rfl)) hd
    exact Triple.of_always (fun _ => hall) hall

/-- Where the batch is complete, or no file comes first, whatever happens keeps the key files. -/
theorem resolveToday_kept (hr : env.Reliable day)
    (h : CompleteOn d (day :: keysDir) count ∨ NoFileFirst d (day :: keysDir)) :
    Triple env (·.disk = d) (resolveToday keysDir count)
      (fun _ => on fun disk _ => KeyFilesKept (day :: keysDir) d disk)
      (on fun disk _ => KeyFilesKept (day :: keysDir) d disk) := by
  refine Triple.bind (Q := fun dir w => w.disk = d ∧ dir = day :: keysDir) ?_ fun dir =>
    Triple.assume fun hdir => ?_
  · refine Triple.bind (reliable_today hr) fun day' => Triple.pure ?_
    rintro w ⟨hw, rfl⟩
    exact ⟨hw, rfl⟩
  rw [hdir]
  apply Triple.bind (reliable_isComplete hr count)
  intro all
  apply Triple.assume
  intro hall
  split
  · refine Triple.bind ((triple_load count (keyFilesKept_addStable (day :: keysDir) d)
      fun _ hk => hk).conseq (fun _ hw => keyFilesKept_of_eq hw) (fun _ w hw => hw.1)
      fun _ hk => hk) fun _ => ?_
    exact Triple.pure fun w hw => hw
  · rename_i hnot
    have hfirst := h.resolve_left fun hc => hnot (hall.2 hc)
    refine Triple.bind ?_ fun _ => Triple.pure fun w hw => hw
    exact triple_createFresh_kept count hfirst

theorem exists_keyFile_ne (bytes : List UInt8) : ∃ kp, keyFile kp ≠ bytes := by
  by_contra hall
  have heq (kp : SigningKey) : keyFile kp = bytes := by
    by_contra hne
    exact hall ⟨kp, hne⟩
  have hinj := keyFile_inj ((heq (Vector.replicate 32 0)).trans (heq (Vector.replicate 32 1)).symm)
  exact absurd hinj (by decide)

theorem triple_createKey_lost (hr : env.Reliable day) (hseed : ∀ t, env.seed t = some kp)
    (hkp : keyFile kp ≠ bytes) (path lost : Path) :
    Triple env (on (Lost lost bytes)) (createKey path) (fun _ => on (Lost lost bytes))
      (on (Lost lost bytes)) := by
  refine Triple.bind (Q := fun kp' w => on (Lost lost bytes) w ∧ kp' = kp) ?_ fun kp' =>
    Triple.assume fun hkp' => ?_
  · intro w hw
    have hask : generateKeypair env w =
        orPanic (env.seed w.tick) env { w with tick := w.tick + 1 } := rfl
    rw [hask, hseed]
    exact ⟨hw, rfl⟩
  · subst hkp'
    refine Triple.bind (triple_writeNew_of ?_ ?_ fun _ hw => hw) fun _ => Triple.pure fun _ hw => hw
    · rintro disk log name dir hd hnew rfl hw
      by_cases hp : lost = name :: dir
      · subst hp
        rw [Lost, Tree.lookup_add_self hd hnew]
        exact fun h => hkp (Node.file.inj (Option.some.inj h))
      · rwa [Lost, Tree.lookup_add_of_ne hd hnew hp]
    · intro disk log name dir kept t hd hnew hfault
      exact absurd (hr.io t) hfault

theorem triple_resolveToday_lost (hr : env.Reliable day) (hseed : ∀ t, env.seed t = some kp)
    (hkp : keyFile kp ≠ bytes) (hcomplete : ¬CompleteOn d (day :: keysDir) count)
    (hfirst : (d.entries (day :: keysDir)).find? isJson = some name)
    (h : d.lookup (name :: day :: keysDir) = some (.file bytes)) :
    Triple env (·.disk = d) (resolveToday keysDir count)
      (fun _ => on (Lost (name :: day :: keysDir) bytes))
      (on (Lost (name :: day :: keysDir) bytes)) := by
  have hisDir : d.IsDir (day :: keysDir) := Tree.isDir_of_isSome (by rw [h]; rfl)
  have hdir : (d.lookup (day :: keysDir)).isSome := by
    rcases hisDir with hnil | hnode
    · cases hnil
    · rw [hnode]
      rfl
  apply Triple.bind (reliable_todayDir hr keysDir)
  intro dir
  apply Triple.assume
  intro hd
  rw [hd]
  apply Triple.bind (reliable_isComplete hr count)
  intro all
  apply Triple.assume
  intro hall
  rw [if_neg (mt hall.1 hcomplete)]
  refine Triple.bind ?_ fun _ => Triple.pure fun w hw => hw
  refine Triple.bind (triple_withContext (triple_createDirAll_isDir hisDir (reliable_syscall hr)))
    fun _ => ?_
  apply Triple.bind (triple_clearJsons_lost hr hdir hfirst h)
  intro _
  exact Triple.each (fun _ _ => on (Lost _ bytes)) fun _ path _ _ _ =>
    triple_createKey_lost hr hseed hkp path _

/-- On any day, resolving the batch keeps every key file exactly if the batch is complete or the
directory lists no key file first. -/
theorem resolveToday_keeps_iff (disk : Tree) (keysDir : Path) (count : Nat) (secs : UInt64)
    (hday : formatYmd (secs.toNat / 86400) = some day) :
    (∀ env : Env, env.Reliable day → KeyFilesKept (day :: keysDir) disk
      (resolveToday keysDir count env (.init disk)).2.disk) ↔
    CompleteOn disk (day :: keysDir) count ∨ NoFileFirst disk (day :: keysDir) := by
  constructor
  · intro hkept
    by_contra hneither
    rw [not_or] at hneither
    obtain ⟨hcomplete, hfirst⟩ := hneither
    obtain ⟨name, hname, hnode⟩ : ∃ name, (disk.entries (day :: keysDir)).find? isJson = some name ∧
        disk.lookup (name :: day :: keysDir) ≠ some .dir := by
      simpa [NoFileFirst] using hfirst
    have hthere := Tree.mem_entries.1 (List.mem_of_find?_eq_some hname)
    obtain ⟨node, hfile⟩ := Option.isSome_iff_exists.1 hthere
    cases node with
    | dir => exact hnode hfile
    | file bytes =>
      obtain ⟨kp, hkp⟩ := exists_keyFile_ne bytes
      have hr := Env.calm_reliable hday kp
      have hlost := (triple_resolveToday_lost hr (fun _ => rfl) hkp hcomplete hname hfile
        (.init disk) rfl).state
      exact hlost (hkept _ hr name bytes (List.find?_some hname) hfile)
  · intro h env hr
    exact (resolveToday_kept hr h (.init disk) rfl).state

end Resolve

def sampleBatch (bytes : List UInt8) : Tree :=
  (sampleKeysDir.add "1970-01-01" ["keys"] .dir isDir_sampleKeysDir rfl).add
    "1.json" ["1970-01-01", "keys"] (.file bytes) (.inr rfl) rfl

theorem resolveToday_keeps_iff_sample :
    (∀ env : Env, env.Reliable "1970-01-01" →
      KeyFilesKept ["1970-01-01", "keys"] (sampleBatch (@keyFile .sample (.replicate 32 1)))
        (@resolveToday .sample ["keys"] 1 env
          (.init (sampleBatch (@keyFile .sample (.replicate 32 1))))).2.disk) ↔
    CompleteOn (sampleBatch (@keyFile .sample (.replicate 32 1))) ["1970-01-01", "keys"] 1 ∨
      NoFileFirst (sampleBatch (@keyFile .sample (.replicate 32 1)))
        ["1970-01-01", "keys"] :=
  @resolveToday_keeps_iff .sample "1970-01-01"
    (sampleBatch (@keyFile .sample (.replicate 32 1))) ["keys"] 1 0 (by decide +kernel)

/-- With a batch of two configured where one key was made before, that key is gone. -/
theorem resolveToday_destroys_key :
    ¬∀ (env : Env) (day : String) (disk : Tree) (keysDir : Path) (count : Nat), env.Reliable day →
      KeyFilesKept (day :: keysDir) disk
        (@resolveToday .sample keysDir count env (.init disk)).2.disk := by
  intro hall
  have hkept := hall (.calm 0 (.replicate 32 2)) "1970-01-01"
    (sampleBatch (@keyFile .sample (.replicate 32 1))) ["keys"] 2
    (Env.calm_reliable (by decide +kernel) (.replicate 32 2))
  have hfile := hkept "1.json" (@keyFile .sample (.replicate 32 1)) (by decide +kernel) rfl
  revert hfile
  decide +kernel

end TokenPumper
