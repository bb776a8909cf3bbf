import Vestrace.Run.Conduct
import Vestrace.Run.Failure

/-!
# Optimistic concurrency

Clients and workers load a run, compute, and commit in a transaction of its own, with
anything in between. That nothing is lost is the work of one comparison in `commitOn`,
and of every caller building on the version it was last shown (`conduct`): the commits
that succeed form one sequence, each computed from what the one before it left.
-/

namespace Vestrace.Run

open Lib RunWorld Job List

/-! ## Reading a record -/

/-- A port call some client or worker made on the tables of the run. -/
abbrev RunMade := Made runPorts Job

def PortCall.shows : (call : PortCall) → call.Answer → Option RunVersion
  | .load .., (answer : Option RunSnapshot) => answer.map fun snapshot => snapshot.run.version
  | .commit .., (answer : AppResult RunSnapshot) =>
    answer.toOption.map fun snapshot => snapshot.run.version
  | _, _ => none

def PortCall.commits : (call : PortCall) → call.Answer → Bool
  | .commit .., (answer : AppResult RunSnapshot) => answer.isOk
  | _, _ => false

def committed (m : RunMade) : Bool := m.call.commits m.answer

def lastShown (log : List RunMade) (k : ℕ) : Option RunVersion :=
  log.foldl (fun version m => if m.thread = k then (m.call.shows m.answer).or version else version)
    none

theorem lastShown_snoc (log : List RunMade) (m : RunMade) (k : ℕ) : lastShown (log ++ [m]) k =
      if m.thread = k then (m.call.shows m.answer).or (lastShown log k) else lastShown log k := by
  rw [lastShown, foldl_append]
  rfl

theorem learn_shown (l : Memory) (call : PortCall) (answer : call.Answer) :
    (l.learn call answer).shown.map Prod.fst =
      (call.shows answer).or (l.shown.map Prod.fst) := by
  cases call with
  | load | commit => cases answer <;> rfl
  | _ => rfl

/-! ## The account -/

/-- The run has had one version for every commit so far, its creation included, and nobody
takes a version for the last they were shown that is not. -/
def serialAccount : Account conduct where
  Inv log db := Plain db.steps ∧
    ∃ run, db.run = some run ∧ run.version.toNat = log.countP committed + 1
  Knows log _ k _ l :=
    ∀ version, l.shown.map Prod.fst = some version → lastShown log k = some version
  sound h := h.1
  fresh _ _ _ _ _ h := nomatch h

section

variable {log : List RunMade} {m : RunMade} {l : Memory}

theorem countP_snoc (log : List RunMade) (m : RunMade) :
    (log ++ [m]).countP committed = log.countP committed + if committed m then 1 else 0 := by
  rw [countP_append, countP_singleton]

theorem Quiet.serial (hquiet : Quiet m.before m.after) (hm : committed m = false)
    (h : serialAccount.Inv log m.before) : serialAccount.Inv (log ++ [m]) m.after := by
  obtain ⟨hplain, run, hrun, hversion⟩ := h
  refine ⟨?_, run, ?_, ?_⟩
  · rw [hquiet.steps]
    exact hplain
  · rw [hquiet.run]
    exact hrun
  · rw [countP_snoc, hm, hversion]
    rfl

theorem PortCall.commits_of_quiet {call : PortCall} (h : call.isQuiet = true)
    (answer : call.Answer) : call.commits answer = false := by
  cases call with
  | create | commit => cases h
  | _ => rfl

theorem serialAccount_inv (hmay : conduct.May m.job l m.call)
    (h : serialAccount.Inv log m.before) : serialAccount.Inv (log ++ [m]) m.after := by
  obtain ⟨k, job, call, db⟩ := m
  by_cases hcall : call.isQuiet = true
  · exact Quiet.serial (exec_quiet hcall db) (PortCall.commits_of_quiet hcall _) h
  · cases call with
    | create ctx commit => exact absurd hmay id
    | commit ctx commit =>
      obtain ⟨_, _, -, hbuilds, -⟩ := hmay
      show serialAccount.Inv _ ((PortCall.commit ctx commit).exec db).2
      rcases exec_commit ctx commit db with ⟨e, hexec⟩ | ⟨row, hcommits, hexec⟩
      · have hm : committed ⟨k, job, .commit ctx commit, db⟩ = false := by
          show Except.isOk ((PortCall.commit ctx commit).exec db).1 = false
          rw [hexec]
          rfl
        refine Quiet.serial ?_ hm h
        show Quiet db ((PortCall.commit ctx commit).exec db).2
        rw [hexec]
        exact Quiet.refl db
      · have hm : committed ⟨k, job, .commit ctx commit, db⟩ = true := by
          show Except.isOk ((PortCall.commit ctx commit).exec db).1 = true
          rw [hexec]
          rfl
        obtain ⟨hplain, run, hrun, hversion⟩ := h
        have hrow : run = row := Option.mem_unique hrun hcommits.found
        rw [hexec]
        refine ⟨plain_foldl hplain hbuilds.plain, _, rfl, ?_⟩
        show commit.run.version.toNat = _
        rw [countP_snoc, hm, hcommits.version, ← hrow, hversion]
        rfl
    | _ => exact absurd rfl hcall

theorem serial_renews {w : RunWorld} {memory : ℕ → Memory} (hinv : serialAccount.Inv log m.before)
    (hknows : serialAccount.Knows log m.before m.thread m.job (memory m.thread))
    (hmay : conduct.May m.job (memory m.thread) m.call) : serialAccount.Renews log w memory m := by
  refine ⟨serialAccount_inv hmay hinv, ?_, ?_⟩
  · intro version hshown
    rw [lastShown_snoc, if_pos rfl]
    have hlearn : (m.call.shows m.answer).or ((memory m.thread).shown.map Prod.fst) =
        some version := by
      rw [← learn_shown]
      exact hshown
    rcases Option.or_eq_some_iff.mp hlearn with hnew | ⟨hnone, hold⟩
    · rw [hnew]
      rfl
    · rw [hnone, Option.none_or]
      exact hknows version hold
  · intro k thread hne _ hknows' version hshown
    rw [lastShown_snoc, if_neg (Ne.symm hne)]
    exact hknows' version hshown

end

section

variable {db : RunDb} {actions : List (Action Job)}

structure CommittedAs (k : ℕ) (earlier : List RunMade) (m : RunMade) (commit : CommitRun) :
    Prop where
  version : m.after.run.map (fun run => run.version.toNat) = some k
  event : m.after.events = m.before.events ++ [.canonical commit.event]
  sequence : commit.event.sequence.value.toNat = k
  computedFrom : ∃ version, lastShown earlier m.thread = some version ∧ version.toNat + 1 = k

theorem committedAs_of_made {ctx : RequestContext} {commit : CommitRun}
    (h : serialAccount.Upheld [] (still db) fun _ => conduct.fresh)
    {earlier later : List RunMade} {m : RunMade}
    (hmade : (still db).made program actions = earlier ++ m :: later)
    (hcall : m.call = .commit ctx commit) :
    if committed m then CommittedAs (earlier.countP committed + 2) earlier m commit
    else m.after = m.before := by
  obtain ⟨before, action, after, -, rfl, hmakes⟩ := World.made_split hmade
  have hupheld : serialAccount.Upheld _ ((still db).run program before) _ :=
    h.run follows_program fun _ _ _ _ _ hmakes hupheld => by
      obtain ⟨hinv, hmay, hknows⟩ := hupheld.makes hmakes
      exact serial_renews hinv hknows hmay
  obtain ⟨⟨-, run, hrun, hversion⟩, hmay, hknows⟩ := hupheld.makes hmakes
  obtain ⟨k, job, call, db'⟩ := m
  cases hcall
  obtain ⟨version, status, hshown, hbuilds, -⟩ := hmay
  rcases exec_commit ctx commit db' with ⟨e, hexec⟩ | ⟨row, hcommits, hexec⟩
  · rw [if_neg]
    · show ((PortCall.commit ctx commit).exec db').2 = db'
      rw [hexec]
    · show ¬ Except.isOk ((PortCall.commit ctx commit).exec db').1 = true
      rw [hexec]
      nofun
  · have hrow : run = row := Option.mem_unique hrun hcommits.found
    have hk : commit.run.version.toNat =
        ((still db).made program before).countP committed + 2 := by
      rw [hcommits.version, ← hrow, hversion]
    have hnext := (RunVersion.next_eq_ok.mp hbuilds.next)
    rw [if_pos]
    · refine ⟨?_, ?_, ?_, version, hknows version (congrArg _ hshown), ?_⟩
      · show ((PortCall.commit ctx commit).exec db').2.run.map _ = _
        rw [hexec]
        exact congrArg some hk
      · show ((PortCall.commit ctx commit).exec db').2.events = _
        rw [hexec]
        rfl
      · rw [hbuilds.sequence]
        exact hk
      · omega
    · show Except.isOk ((PortCall.commit ctx commit).exec db').1 = true
      rw [hexec]
      rfl

theorem call_of_committed {m : RunMade} (h : committed m = true) :
    ∃ ctx commit, m.call = .commit ctx commit := by
  obtain ⟨k, job, call, db'⟩ := m
  cases call with
  | commit ctx commit => exact ⟨ctx, commit, rfl⟩
  | _ => cases h

/-- **Optimistic concurrency loses nothing.** In any interleaving, the `k`-th commit to succeed
leaves version `k`, appends the event with sequence `k` and was computed from version `k - 1`, as
it was last shown to whoever made it; one that is refused changes nothing. -/
theorem commits_serialize {context : RequestContext} {command : CreateRun} {runId : AgentRunId}
    {draw : Draw} {created : RunSnapshot}
    (hcreate : (createRun context command runId draw).run .empty = (.ok created, db)) :
    (db.run.map (fun run => run.version.toNat) = some 1 ∧
      ∃ event, db.events = [.canonical event] ∧ event.sequence.value.toNat = 1) ∧
    ∀ actions : List (Action Job), (∀ earlier m later context commit,
        (still db).made program actions = earlier ++ m :: later →
        m.call = .commit context commit →
          if committed m then CommittedAs (earlier.countP committed + 2) earlier m commit
          else m.after = m.before) ∧
      ∀ earlier m between m' later, (still db).made program actions =
          earlier ++ m :: (between ++ m' :: later) →
        committed m = true → committed m' = true →
          lastShown earlier m.thread ≠ lastShown (earlier ++ m :: between) m'.thread := by
  have hupheld : serialAccount.Upheld [] (still db) fun _ => conduct.fresh := by
    obtain ⟨run, event, hrun, -, rfl⟩ := createRun_ok hcreate
    obtain ⟨-, -, hversion⟩ := create_fields hrun
    refine ⟨⟨forall_mem_nil _, _, rfl, ?_⟩, ?_⟩
    · show run.version.toNat = 1
      rw [hversion]
      rfl
    · intro k thread hthread
      cases hthread
  refine ⟨?_, fun actions => ⟨?_, ?_⟩⟩
  · obtain ⟨run, event, hrun, hevent, rfl⟩ := createRun_ok hcreate
    obtain ⟨-, -, hversion⟩ := create_fields hrun
    refine ⟨?_, event, rfl, ?_⟩
    · show some run.version.toNat = some 1
      rw [hversion]
      rfl
    · rw [Draw.event_ok hevent]
      rfl
  · intro earlier m later context commit hmade hcall
    exact committedAs_of_made hupheld hmade hcall
  · intro earlier m between m' later hmade hm hm'
    obtain ⟨context, commit, hcall⟩ := call_of_committed hm
    obtain ⟨context', commit', hcall'⟩ := call_of_committed hm'
    have hfirst := committedAs_of_made hupheld hmade hcall
    have hsecond := committedAs_of_made hupheld
      (hmade.trans (append_assoc earlier (m :: between) (m' :: later)).symm) hcall'
    rw [if_pos hm] at hfirst
    rw [if_pos hm'] at hsecond
    obtain ⟨version, hshown, hversion⟩ := hfirst.computedFrom
    obtain ⟨version', hshown', hversion'⟩ := hsecond.computedFrom
    -- the first of the two counts in what came before the second
    rw [countP_append, countP_cons_of_pos hm] at hversion'
    intro hsame
    rw [hshown, hshown'] at hsame
    cases hsame
    omega

end

/-- Two clients cancel the run, and both have loaded it before either commits. -/
def bothCancel : List (Action Job) :=
  let cancel n := client reportContext (.transitionRun abandonReport (drawAt n))
  [.start 0 (cancel 2), .start 1 (cancel 3), .step 0, .step 1, .step 0, .step 0, .step 1, .step 1]

theorem commits_serialize_bothCancel :
    ∃ created db, ReportCreated created db ∧
      ((still db).made program bothCancel).map committed =
        [false, false, false, true, false, false] ∧
      ∀ earlier m later context commit,
        (still db).made program bothCancel = earlier ++ m :: later →
        m.call = .commit context commit →
          if committed m then CommittedAs (earlier.countP committed + 2) earlier m commit
          else m.after = m.before := by
  have hrun : ∃ created db, ReportCreated created db ∧
      ((still db).made program bothCancel).map committed =
        [false, false, false, true, false, false] := ⟨_, _, rfl, rfl⟩
  obtain ⟨created, db, hcreate, hcommitted⟩ := hrun
  exact ⟨created, db, hcreate, hcommitted, ((commits_serialize hcreate).2 bothCancel).1⟩

end Vestrace.Run
