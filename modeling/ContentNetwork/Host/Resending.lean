import ContentNetwork.Host.Retransmit

/-!
# What the timers of a host send again

Whatever the user types, also a `GET` before the last one is answered, and
whatever responses come: what an expiring timer sends depends only on the
history. It is the request for the content that was asked for last, as long as
no response to it has come, and nothing afterwards (`waitsFor`). While the host
waits, some timer sleeps, so the request is sent again and again. Each `GET`
brings one thread, and a thread that sends nothing is not started again: no
more threads ever sleep, or wake up for nothing, than there were `GET`s
(`run_resends`).

What overlapping `GET`s break is not this but what the earlier ones are
promised: they are forgotten.
-/

namespace ContentNetwork.Host

open Lib Lib.Lts Simplified

/-- The content that was asked for last, unless a response to it has come. -/
def waitsFor (acts : List HostAction) : Option Int :=
  acts.foldl (fun w a =>
    match a with
    | .GET var1 => some var1
    | .RESPONSE octet => if w = some (octet.toNat : Int) then none else w
    | .expire _ => w) none

/-- The `GET`s of a history. -/
def gets (acts : List HostAction) : Nat :=
  acts.countP fun a =>
    match a with
    | .GET _ => true
    | _ => false

/-- A timer thread wakes up and sends nothing. -/
def WakesInVain (m : Move HostState HostAction) : Prop :=
  match m.act with
  | .expire thread => (m.pre.timerProc thread).2 = []
  | _ => False

instance : DecidablePred WakesInVain
  | ⟨h, .expire thread, _⟩ => inferInstanceAs (Decidable ((h.timerProc thread).2 = []))
  | ⟨_, .GET _, _⟩ => .isFalse nofun
  | ⟨_, .RESPONSE _, _⟩ => .isFalse nofun

/-- The host, from its start on. -/
def hostLts (hostID : Int) (ackflag : Bool) : Lts HostState HostAction :=
  .ofStep (.start ackflag) (hostStep hostID)

variable {hostID : Int} {ackflag : Bool} {h h' : HostState} {acts : List HostAction}

/-! ## The history -/

theorem waitsFor_concat (acts : List HostAction) (a : HostAction) :
    waitsFor (acts ++ [a]) =
      match a with
      | .GET var1 => some var1
      | .RESPONSE octet =>
        if waitsFor acts = some (octet.toNat : Int) then none else waitsFor acts
      | .expire _ => waitsFor acts := by
  unfold waitsFor
  rw [List.foldl_append]
  rfl

theorem gets_concat (acts : List HostAction) (a : HostAction) :
    gets (acts ++ [a]) = gets acts +
      match a with
      | .GET _ => 1
      | _ => 0 := by
  unfold gets
  rw [List.countP_append]
  cases a <;> rfl

/-! ## The slots and the history -/

/-- While the host waits, all slots are set to the content and the thread that
was started last sleeps; otherwise no thread sleeps, or the flag is set. -/
structure Remembers (hostID : Int) (h : HostState) (w : Option Int) : Prop where
  waiting : ∀ c, w = some c → h.content_number = c ∧ h.ackflag_ = false ∧
    h.lastPkt_ = some (HostState.requestFor hostID c) ∧ h.tid_ ∈ h.sleeping
  idle : w = none → h.sleeping = [] ∨ h.ackflag_ = true

/-- Threads have different identifiers, smaller than that of the next one. -/
structure Distinct (h : HostState) : Prop where
  nodup : h.sleeping.Nodup
  lt_next : ∀ thread ∈ h.sleeping, thread < h.nextThread

theorem Distinct.startTimer (hd : Distinct h) : Distinct h.startTimer where
  nodup := by
    refine List.nodup_append.mpr ⟨hd.nodup, List.nodup_singleton _, ?_⟩
    intro thread hthread thread' hthread' heq
    obtain rfl := List.mem_singleton.mp hthread'
    have := hd.lt_next thread hthread
    omega
  lt_next := by
    intro thread hthread
    show thread < h.nextThread + 1
    rcases List.mem_append.mp hthread with hthread | hthread
    · have := hd.lt_next thread hthread
      omega
    · obtain rfl := List.mem_singleton.mp hthread
      exact Nat.lt_succ_self _

theorem Distinct.wake (hd : Distinct h) (thread : Nat) : Distinct (h.wake thread) where
  nodup := hd.nodup.filter _
  lt_next := fun t ht => hd.lt_next t (List.mem_of_mem_filter ht)

/-- A thread that wakes up is one less. -/
theorem length_wake (hd : Distinct h) {thread : Nat} (hin : thread ∈ h.sleeping) :
    (h.wake thread).sleeping.length + 1 = h.sleeping.length := by
  have hfilter : (h.wake thread).sleeping = h.sleeping.erase thread := by
    rw [hd.nodup.erase_eq_filter]
    exact List.filter_congr fun t _ => by by_cases ht : t = thread <;> simp [ht]
  rw [hfilter, List.length_erase_of_mem hin]
  have := List.length_pos_of_mem hin
  omega

/-- A thread that wakes up sends what the host waits for and is started again,
or ends if the host waits for nothing. -/
theorem timerProc_eq {w : Option Int} (hr : Remembers hostID h w) {thread : Nat}
    (hin : thread ∈ h.sleeping) :
    h.timerProc thread = (if w.isSome then (h.wake thread).startTimer else h.wake thread,
      (w.map (HostState.requestFor hostID)).toList) := by
  unfold HostState.timerProc HostState.timerHandler
  cases w with
  | some c =>
    obtain ⟨-, hack, hlast, -⟩ := hr.waiting c rfl
    rw [if_pos (show (h.wake thread).ackflag_ = false from hack),
      show (h.wake thread).lastPkt_ = h.lastPkt_ from rfl, hlast]
    rfl
  | none =>
    rcases hr.idle rfl with hnone | hack
    · rw [hnone] at hin
      exact absurd hin List.not_mem_nil
    · rw [if_neg (by rw [show (h.wake thread).ackflag_ = true from hack]; nofun)]
      rfl

/-! ## One step -/

/-- The slots follow the history. -/
theorem step_remembers {a : HostAction} (hr : Remembers hostID h (waitsFor acts))
    (hstep : hostStep hostID h a = some h') : Remembers hostID h' (waitsFor (acts ++ [a])) := by
  rw [waitsFor_concat]
  cases a with
  | GET var1 =>
    obtain rfl := Option.some.inj hstep
    refine ⟨fun c hc => ?_, nofun⟩
    obtain rfl := Option.some.inj hc
    exact ⟨rfl, rfl, rfl, List.mem_append_right _ (List.mem_singleton_self _)⟩
  | RESPONSE octet =>
    obtain rfl := Option.some.inj hstep
    dsimp only
    by_cases ho : (octet.toNat : Int) = h.content_number
    · -- accepted: the flag is set, and the host waits for nothing else
      rw [receiveResponse_accepted ho]
      have hnone : (if waitsFor acts = some (octet.toNat : Int) then none else waitsFor acts)
          = none := by
        cases hw : waitsFor acts with
        | none => simp
        | some c => rw [if_pos (by rw [ho, (hr.waiting c hw).1])]
      rw [hnone]
      exact ⟨nofun, fun _ => .inr rfl⟩
    · rw [receiveResponse_other ho]
      have hsame : (if waitsFor acts = some (octet.toNat : Int) then none else waitsFor acts)
          = waitsFor acts := by
        refine if_neg fun hw => ho ?_
        exact (hr.waiting _ hw).1.symm
      rw [hsame]
      exact hr
  | expire thread =>
    change (if thread ∈ h.sleeping then some (h.timerProc thread).1 else none) = some h' at hstep
    split at hstep
    next hin =>
      obtain rfl := Option.some.inj hstep
      rw [timerProc_eq hr hin]
      dsimp only
      cases hw : waitsFor acts with
      | none =>
        refine ⟨nofun, fun _ => ?_⟩
        rcases hr.idle hw with hnone | hack
        · rw [hnone] at hin
          exact absurd hin List.not_mem_nil
        · exact .inr hack
      | some c =>
        refine ⟨fun c' hc' => ?_, nofun⟩
        obtain rfl := Option.some.inj hc'
        obtain ⟨hcontent, hack, hlast, -⟩ := hr.waiting c hw
        exact ⟨hcontent, hack, hlast, List.mem_append_right _ (List.mem_singleton_self _)⟩
    next => cases hstep

theorem step_distinct {a : HostAction} (hd : Distinct h)
    (hstep : hostStep hostID h a = some h') : Distinct h' := by
  cases a with
  | GET var1 =>
    obtain rfl := Option.some.inj hstep
    exact ⟨hd.startTimer.nodup, hd.startTimer.lt_next⟩
  | RESPONSE octet =>
    obtain rfl := Option.some.inj hstep
    dsimp only [HostState.receiveResponse]
    split
    · exact ⟨(hd.wake h.tid_).nodup, (hd.wake h.tid_).lt_next⟩
    · exact hd
  | expire thread =>
    change (if thread ∈ h.sleeping then some (h.timerProc thread).1 else none) = some h' at hstep
    split at hstep
    next hin =>
      obtain rfl := Option.some.inj hstep
      unfold HostState.timerProc HostState.timerHandler
      split
      · exact (hd.wake thread).startTimer
      · exact hd.wake thread
    next => cases hstep

/-- The threads that sleep after a step, and the one that wakes up in vain. -/
theorem step_sleeping {a : HostAction} (hr : Remembers hostID h (waitsFor acts)) (hd : Distinct h)
    (hstep : hostStep hostID h a = some h') :
    h'.sleeping.length + (if WakesInVain ⟨h, a, h'⟩ then 1 else 0)
      ≤ h.sleeping.length + (gets (acts ++ [a]) - gets acts) := by
  rw [gets_concat, Nat.add_sub_cancel_left]
  cases a with
  | GET var1 =>
    obtain rfl := Option.some.inj hstep
    rw [if_neg (show ¬WakesInVain ⟨h, .GET var1, _⟩ from nofun)]
    exact (List.length_append ..).le
  | RESPONSE octet =>
    obtain rfl := Option.some.inj hstep
    rw [if_neg (show ¬WakesInVain ⟨h, .RESPONSE octet, _⟩ from nofun)]
    dsimp only [HostState.receiveResponse]
    split
    · exact List.length_filter_le ..
    · exact Nat.le_refl _
  | expire thread =>
    change (if thread ∈ h.sleeping then some (h.timerProc thread).1 else none) = some h' at hstep
    split at hstep
    next hin =>
      obtain rfl := Option.some.inj hstep
      have hlength := length_wake hd hin
      have hsends : WakesInVain ⟨h, .expire thread, (h.timerProc thread).1⟩
          ↔ waitsFor acts = none := by
        show (h.timerProc thread).2 = [] ↔ _
        rw [timerProc_eq hr hin]
        simp
      rw [timerProc_eq hr hin] at hsends ⊢
      simp only [hsends]
      cases hw : waitsFor acts with
      | none =>
        simp
        omega
      | some c =>
        simp [HostState.startTimer]
        omega
    next => cases hstep

/-! ## Runs -/

/-- The slots always follow the history. -/
theorem run_remembers {ms : List (Move HostState HostAction)}
    (hrun : (hostLts hostID ackflag).Run ms h) :
    Remembers hostID h (waitsFor (ms.map Move.act)) ∧ Distinct h := by
  induction hrun with
  | start hs =>
    obtain rfl := hs
    exact ⟨⟨nofun, fun _ => .inl rfl⟩, List.nodup_nil, nofun⟩
  | @snoc ms h h' a hrun hs ih =>
    rw [List.map_append, List.map_singleton]
    exact ⟨step_remembers ih.1 hs, step_distinct ih.2 hs⟩

/-- **What is sent again is what is waited for, and nothing else**, in every run
of the host. -/
theorem run_resends {ms : List (Move HostState HostAction)}
    (hrun : (hostLts hostID ackflag).Run ms h) :
    (∀ thread ∈ h.sleeping, (h.timerProc thread).2
      = ((waitsFor (ms.map Move.act)).map (HostState.requestFor hostID)).toList) ∧
    ((waitsFor (ms.map Move.act)).isSome → h.sleeping ≠ []) ∧
    h.sleeping.length + ms.countP (fun m => WakesInVain m) ≤ gets (ms.map Move.act) := by
  have hcount : h.sleeping.length + ms.countP (fun m => WakesInVain m)
      ≤ gets (ms.map Move.act) := by
    induction hrun with
    | start hs =>
      obtain rfl := hs
      exact Nat.le_refl 0
    | @snoc ms h h' a hrun hs ih =>
      obtain ⟨hr, hd⟩ := run_remembers hrun
      have hsleep := step_sleeping hr hd hs
      have hgets := gets_concat (ms.map Move.act) a
      rw [List.map_append, List.map_singleton, List.countP_append, List.countP_singleton]
      simp only [decide_eq_true_eq] at hsleep ⊢
      omega
  obtain ⟨hr, -⟩ := run_remembers hrun
  refine ⟨fun thread hin => congrArg Prod.snd (timerProc_eq hr hin), fun hw => ?_, hcount⟩
  obtain ⟨c, hc⟩ := Option.isSome_iff_exists.mp hw
  exact List.ne_nil_of_mem (hr.waiting c hc).2.2.2

/-- Content 8 is requested before content 7 has come; the timer of 7 then sends
the request for 8, whose response leaves one thread that wakes up in vain. -/
theorem run_resends_overlapping :
    ∃ ms h, (hostLts 10 true).Run ms h ∧ h.sleeping = [1] ∧
      (∀ thread ∈ h.sleeping, (h.timerProc thread).2
        = ((waitsFor (ms.map Move.act)).map (HostState.requestFor 10)).toList) ∧
      ((waitsFor (ms.map Move.act)).isSome → h.sleeping ≠ []) ∧
      h.sleeping.length + ms.countP (fun m => WakesInVain m) ≤ gets (ms.map Move.act) := by
  have hsleeping : (trace (hostStep 10) (.start true)
      [.GET 7, .GET 8, .expire 0, .RESPONSE 8]).map (fun r => r.2.sleeping) = some [1] := by
    decide
  obtain ⟨⟨ms, h⟩, htrace, hs⟩ := Option.map_eq_some_iff.mp hsleeping
  have hrun : (hostLts 10 true).Run ms h := run_of_trace htrace
  exact ⟨ms, h, hrun, hs, run_resends hrun⟩

end ContentNetwork.Host
