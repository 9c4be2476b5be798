/-
  The order in which a TLS transport writes.

  The plaintext that is queued is the plaintext that the SSL object has accepted, followed by the
  backlog; the ciphertext is what has been handed to the transport, followed by what is pending in the
  write BIO.  Only the call that holds the send lock hands ciphertext over.

  `ordered`: without failures of the transport and cancellations, nothing is written out of order,
  twice, or by two calls at once, and when a send call returns, what it has queued is encrypted and
  all ciphertext up to its last SSL call is sent.
-/
import EasyNetwork.Tls

namespace EasyNetwork

namespace Tls

/-! ## The backlog -/

/-- What the SSL object has accepted and what is left are what was in the backlog. -/
theorem writeAllToSslObject_flatten : ∀ {backlog : List Bytes} {writes : List (Write × Bytes)}
    {r : WriteAll}, writeAllToSslObject backlog writes = some r →
    r.written ++ r.backlog.flatten = backlog.flatten ∧ (r.outcome = .done → r.backlog = [])
  | [], [], r, h => by
    cases h
    exact ⟨rfl, fun _ => rfl⟩
  | data :: backlog, (.accepts sent, cipher) :: writes, r, h => by
    rw [writeAllToSslObject] at h
    split_ifs at h with hsent hlt
    all_goals
      obtain ⟨r', hr', rfl⟩ := Option.map_eq_some_iff.1 h
      obtain ⟨hflatten, hdone⟩ := writeAllToSslObject_flatten hr'
      refine ⟨?_, hdone⟩
      show data.take sent ++ r'.written ++ r'.backlog.flatten = (data :: backlog).flatten
      rw [List.append_assoc, hflatten, List.flatten_cons]
    · rw [List.flatten_cons, ← List.append_assoc, List.take_append_drop]
    · rw [List.take_of_length_le (not_lt.1 hlt)]
  | data :: backlog, [(.raises outcome, cipher)], r, h => by
    rw [writeAllToSslObject] at h
    split_ifs at h with hne
    cases h
    exact ⟨rfl, fun hc => absurd hc hne⟩
  | data :: backlog, (.raises outcome, cipher) :: _ :: _, r, h => by
    rw [writeAllToSslObject] at h
    all_goals simp
    cases h
  | [], _ :: _, r, h => by
    cases h
  | _ :: _, [], r, h => by
    cases h

/-! ## The invariant -/

/-- The data of a send call has been encrypted. -/
def Written (s : State) (c : ℕ) (method : Method) : Prop :=
  method = .writeAll → s.position c ≤ s.written.length

/-- What a call in a phase knows.  The call that holds the send lock has handed over all that was
    pending. -/
def CallOk (s : State) (c : ℕ) : Phase → Prop
  | .waitSend method why => s.sendLock.holder ≠ some c ∧
      (why = .done → s.mark c ≤ s.cipher.length ∧ Written s c method)
  | .sending method why data => s.sendLock.holder = some c ∧ s.completed ++ data = s.sent.flatten ∧
      (why = .done → s.mark c ≤ s.sent.flatten.length ∧ Written s c method)
  | .returned method => s.sendLock.holder ≠ some c ∧ s.mark c ≤ s.completed.length ∧
      Written s c method
  | _ => s.sendLock.holder ≠ some c

/-- What does not depend on the phases. -/
structure Shared (s : State) : Prop where
  plaintext : s.queued = s.written ++ s.backlog.flatten
  ciphertext : s.cipher = s.sent.flatten ++ s.writeBio
  position : ∀ c, s.position c ≤ s.queued.length
  behind : s.completed <+: s.sent.flatten

structure Inv (s : State) : Prop extends Shared s where
  calls : ∀ c, CallOk s c (s.phase c)
  /-- while the send lock is free, all that has been handed over is sent -/
  idle : s.sendLock.holder = none → s.completed = s.sent.flatten
  notCalled : ∀ c, s.calls ≤ c → s.phase c = .notCalled

/-- A call runs, without the send lock. -/
structure Runs (s : State) (call : ℕ) : Prop extends Shared s where
  calls : ∀ c ≠ call, CallOk s c (s.phase c)
  idle : s.sendLock.holder = none → s.completed = s.sent.flatten
  notCalled : ∀ c, s.calls ≤ c → s.phase c = .notCalled
  call_lt : call < s.calls
  holder_ne : s.sendLock.holder ≠ some call

section
variable {s s' : State} {call c : ℕ} {method : Method} {why : Why} {phase : Phase}

/-- A call that does not run knows what it knew. -/
theorem CallOk.frame (h : CallOk s c phase)
    (hholder : s'.sendLock.holder = some c ↔ s.sendLock.holder = some c)
    (hsent : s.sendLock.holder = some c → s'.sent = s.sent ∧ s'.completed = s.completed)
    (hcipher : s.cipher.length ≤ s'.cipher.length)
    (hwritten : s.written.length ≤ s'.written.length)
    (hcompleted : s.completed.length ≤ s'.completed.length)
    (hmark : s'.mark c = s.mark c) (hposition : s'.position c = s.position c) :
    CallOk s' c phase := by
  have hWritten : ∀ method, Written s c method → Written s' c method := by
    intro method hw hm
    rw [hposition]
    exact (hw hm).trans hwritten
  have hne : s.sendLock.holder ≠ some c → s'.sendLock.holder ≠ some c :=
    fun hn hc => hn (hholder.1 hc)
  cases phase with
  | waitSend method why =>
    refine ⟨hne h.1, fun hwhy => ⟨?_, hWritten _ (h.2 hwhy).2⟩⟩
    rw [hmark]
    exact (h.2 hwhy).1.trans hcipher
  | sending method why data =>
    obtain ⟨h1, h2, h3⟩ := h
    obtain ⟨hs, hc⟩ := hsent h1
    refine ⟨hholder.2 h1, ?_, fun hwhy => ⟨?_, hWritten _ (h3 hwhy).2⟩⟩
    · rw [hs, hc]
      exact h2
    · rw [hmark, hs]
      exact (h3 hwhy).1
  | returned method =>
    obtain ⟨h1, h2, h3⟩ := h
    refine ⟨hne h1, ?_, hWritten _ h3⟩
    rw [hmark]
    exact h2.trans hcompleted
  | _ => exact hne h

theorem Inv.init : Inv {} where
  plaintext := rfl
  ciphertext := rfl
  position _ := le_rfl
  behind := List.prefix_rfl
  calls _ hc := by cases hc
  idle _ := rfl
  notCalled _ _ := rfl

/-- The call that runs is suspended, or ends. -/
theorem Runs.setPhase (h : Runs s call) (hcall : CallOk s call phase) :
    Inv (s.setPhase call phase) where
  toShared := ⟨h.plaintext, h.ciphertext, h.position, h.behind⟩
  calls c := by
    show CallOk _ c (Function.update s.phase call phase c)
    by_cases hc : c = call
    · rw [hc, Function.update_self]
      exact hcall.frame Iff.rfl (fun _ => ⟨rfl, rfl⟩) le_rfl le_rfl le_rfl rfl rfl
    · rw [Function.update_of_ne hc]
      exact (h.calls c hc).frame Iff.rfl (fun _ => ⟨rfl, rfl⟩) le_rfl le_rfl le_rfl rfl rfl
  idle := h.idle
  notCalled c hc := by
    show Function.update s.phase call phase c = .notCalled
    rw [Function.update_of_ne (h.call_lt.trans_le hc).ne']
    exact h.notCalled c hc

/-- What a call does to the receiving side does not matter here. -/
theorem Runs.recv (h : Runs s call) (recvLock : QueueLock) (reads : List Bool) (stale : ℕ → Bool) :
    Runs { s with recvLock, reads, stale } call where
  toShared := ⟨h.plaintext, h.ciphertext, h.position, h.behind⟩
  calls c hc := (h.calls c hc).frame Iff.rfl (fun _ => ⟨rfl, rfl⟩) le_rfl le_rfl le_rfl rfl rfl
  idle := h.idle
  notCalled := h.notCalled
  call_lt := h.call_lt
  holder_ne := h.holder_ne

theorem Runs.readinto (h : Runs s call) (method : Method) : Inv (s.readinto call method) :=
  (h.recv s.recvLock (s.reads ++ [s.stale call]) s.stale).setPhase h.holder_ne

theorem Runs.acquireRecv (h : Runs s call) (method : Method) : Inv (s.acquireRecv call method) := by
  unfold State.acquireRecv
  split
  · exact (h.recv _ s.reads s.stale).readinto method
  · exact (h.recv _ s.reads s.stale).setPhase h.holder_ne

/-- The call has flushed the write BIO. -/
theorem Runs.flushed (h : Runs s call) (hwhy : why ≠ .wantWrite)
    (hdone : why = .done → s.mark call ≤ s.completed.length ∧ Written s call method) :
    Inv (s.flushed call method why) := by
  cases why with
  | wantRead => exact h.acquireRecv method
  | wantWrite => exact absurd rfl hwhy
  | done => exact h.setPhase ⟨h.holder_ne, hdone rfl⟩

/-- A call runs with the send lock, which it has just got. -/
structure Holds (s : State) (call : ℕ) : Prop extends Shared s where
  calls : ∀ c ≠ call, CallOk s c (s.phase c)
  completed : s.completed = s.sent.flatten
  notCalled : ∀ c, s.calls ≤ c → s.phase c = .notCalled
  call_lt : call < s.calls
  holder : s.sendLock.holder = some call

theorem Holds.holder_ne (h : Holds s call) (hc : c ≠ call) : s.sendLock.holder ≠ some c := by
  rw [h.holder]
  intro heq
  exact hc (Option.some.inj heq).symm

/-- The send lock is released. -/
theorem Holds.release (h : Holds s call) :
    Runs { s with sendLock := s.sendLock.release } call where
  toShared := ⟨h.plaintext, h.ciphertext, h.position, h.behind⟩
  calls c hc := (h.calls c hc).frame (iff_of_false (by simp) (h.holder_ne hc))
    (fun _ => ⟨rfl, rfl⟩) le_rfl le_rfl le_rfl rfl rfl
  idle _ := h.completed
  notCalled := h.notCalled
  call_lt := h.call_lt
  holder_ne hc := by cases hc

theorem Holds.flush (h : Holds s call)
    (hdone : why = .done → s.mark call ≤ s.cipher.length ∧ Written s call method) :
    Inv (s.flush call method why) := by
  unfold State.flush
  split_ifs with hsend
  · -- the call sends all that is pending; the others are not concerned, since they have not the lock
    have hsent : (s.sent ++ [s.writeBio]).flatten = s.cipher := by
      rw [List.flatten_append, List.flatten_cons, List.flatten_nil, List.append_nil, h.ciphertext]
    refine ⟨⟨h.plaintext, ?_, h.position, ?_⟩, fun c => ?_, fun hc => ?_, fun c hc => ?_⟩
    · show s.cipher = (s.sent ++ [s.writeBio]).flatten ++ []
      rw [hsent, List.append_nil]
    · show s.completed <+: (s.sent ++ [s.writeBio]).flatten
      rw [hsent, h.completed, h.ciphertext]
      exact List.prefix_append _ _
    · show CallOk _ c (Function.update s.phase call _ c)
      by_cases hc : c = call
      · rw [hc, Function.update_self]
        refine ⟨h.holder, ?_, fun hwhy => ?_⟩
        · show s.completed ++ s.writeBio = (s.sent ++ [s.writeBio]).flatten
          rw [hsent, h.completed, h.ciphertext]
        · show s.mark call ≤ (s.sent ++ [s.writeBio]).flatten.length ∧ _
          rw [hsent]
          exact hdone hwhy
      · rw [Function.update_of_ne hc]
        exact (h.calls c hc).frame Iff.rfl (fun hholder => absurd hholder (h.holder_ne hc)) le_rfl
          le_rfl le_rfl rfl rfl
    · cases h.holder.symm.trans hc
    · show Function.update s.phase call _ c = .notCalled
      rw [Function.update_of_ne (h.call_lt.trans_le hc).ne']
      exact h.notCalled c hc
  · rw [not_or, not_not] at hsend
    refine h.release.flushed hsend.1 fun hwhy => ⟨?_, (hdone hwhy).2⟩
    show s.mark call ≤ s.completed.length
    have hcipher := h.ciphertext
    rw [hsend.2, List.append_nil] at hcipher
    rw [h.completed, ← hcipher]
    exact (hdone hwhy).1

/-- The send lock, once it is free, is given to the call that runs. -/
theorem Runs.hold (h : Runs s call) (hfree : s.sendLock.holder = none) {sendLock : QueueLock}
    (hholder : sendLock.holder = some call) : Holds { s with sendLock } call where
  toShared := ⟨h.plaintext, h.ciphertext, h.position, h.behind⟩
  calls c hc := by
    refine (h.calls c hc).frame (iff_of_false ?_ ?_) (fun _ => ⟨rfl, rfl⟩) le_rfl le_rfl le_rfl rfl
      rfl
    · show sendLock.holder ≠ some c
      rw [hholder]
      intro heq
      exact hc (Option.some.inj heq).symm
    · rw [hfree]
      intro heq
      cases heq
  completed := h.idle hfree
  notCalled := h.notCalled
  call_lt := h.call_lt
  holder := hholder

theorem Runs.acquireSend (h : Runs s call)
    (hdone : why = .done → s.mark call ≤ s.cipher.length ∧ Written s call method) :
    Inv (s.acquireSend call method why) := by
  unfold State.acquireSend
  rcases hacquire : s.sendLock.acquire call with ⟨sendLock, got⟩
  rcases QueueLock.acquire_cases s.sendLock call with ⟨hfree, hholder, hgot⟩ | ⟨hholder, hgot⟩ <;>
    rw [hacquire] at hholder hgot <;> obtain rfl : got = _ := hgot
  · exact (h.hold hfree hholder).flush hdone
  · have hruns : Runs { s with sendLock } call := by
      refine ⟨⟨h.plaintext, h.ciphertext, h.position, h.behind⟩, fun c hc => ?_, fun hc => ?_,
        h.notCalled, h.call_lt, ?_⟩
      · refine (h.calls c hc).frame ?_ (fun _ => ⟨rfl, rfl⟩) le_rfl le_rfl le_rfl rfl rfl
        show sendLock.holder = some c ↔ _
        rw [hholder]
      · exact h.idle (hholder.symm.trans hc)
      · show sendLock.holder ≠ some call
        rw [hholder]
        exact h.holder_ne
    exact hruns.setPhase ⟨hruns.holder_ne, hdone⟩

/-- What the SSL object does to the plaintext and the ciphertext. -/
theorem sslCall_spec {ssl : Ssl} {outcome : SslOutcome}
    (hs : s.sslCall method ssl = some (outcome, s')) :
    ∃ backlog written cipher, s' = { s with
        backlog
        written := s.written ++ written
        writeBio := s.writeBio ++ cipher
        cipher := s.cipher ++ cipher } ∧
      written ++ backlog.flatten = s.backlog.flatten ∧
      (method = .writeAll → outcome = .done → backlog = []) := by
  rcases ssl with ⟨outcome', cipher⟩ | writes
  · cases method <;> cases hs
    all_goals
      refine ⟨s.backlog, [], cipher, ?_, rfl, fun hm => by cases hm⟩
      rw [List.append_nil]
  · cases method with
    | writeAll =>
      obtain ⟨r, hr, heq⟩ := Option.map_eq_some_iff.1 hs
      cases heq
      obtain ⟨hflatten, hdone⟩ := writeAllToSslObject_flatten hr
      exact ⟨r.backlog, r.written, r.cipher, rfl, hflatten, fun _ => hdone⟩
    | read | unwrap => cases hs

theorem Runs.retrySslMethod (h : Runs s call) {ssl : Ssl}
    (hs : s.retrySslMethod call method ssl = some s') : Inv s' := by
  obtain ⟨⟨outcome, s₁⟩, hssl, rfl⟩ := Option.map_eq_some_iff.1 hs
  obtain ⟨backlog, written, cipher, rfl, hflatten, hdone⟩ := sslCall_spec hssl
  have hruns : Runs { s with
      backlog
      written := s.written ++ written
      writeBio := s.writeBio ++ cipher
      cipher := s.cipher ++ cipher
      mark := Function.update s.mark call (s.cipher ++ cipher).length
      stale := Function.update s.stale call false } call := by
    refine ⟨⟨?_, ?_, h.position, h.behind⟩, fun c hc => ?_, h.idle, h.notCalled, h.call_lt,
      h.holder_ne⟩
    · show s.queued = s.written ++ written ++ backlog.flatten
      rw [List.append_assoc, hflatten]
      exact h.plaintext
    · show s.cipher ++ cipher = s.sent.flatten ++ (s.writeBio ++ cipher)
      rw [h.ciphertext, List.append_assoc]
    · refine (h.calls c hc).frame Iff.rfl (fun _ => ⟨rfl, rfl⟩) ?_ ?_ le_rfl
        (Function.update_of_ne hc _ _) rfl
      · show s.cipher.length ≤ (s.cipher ++ cipher).length
        rw [List.length_append]
        exact Nat.le_add_right _ _
      · show s.written.length ≤ (s.written ++ written).length
        rw [List.length_append]
        exact Nat.le_add_right _ _
  cases outcome with
  | done =>
    refine hruns.acquireSend fun _ => ⟨?_, fun hm => ?_⟩
    · show Function.update s.mark call _ call ≤ _
      rw [Function.update_self]
    · have hwritten : s.written ++ written = s.queued := by
        rw [hdone hm rfl] at hflatten
        rw [h.plaintext, ← hflatten, List.flatten_nil, List.append_nil]
      show s.position call ≤ (s.written ++ written).length
      rw [hwritten]
      exact h.position call
  | wantRead => exact hruns.acquireSend fun hc => by cases hc
  | wantWrite => exact hruns.acquireSend fun hc => by cases hc
  | error => exact hruns.setPhase hruns.holder_ne

/-! ## The runs -/

/-- A new call runs. -/
theorem Inv.enter (h : Inv s) (data : List Bytes) : Runs (s.enter method data) s.calls where
  plaintext := by
    show s.queued ++ data.flatten = s.written ++ (s.backlog ++ data).flatten
    rw [h.plaintext, List.flatten_append, List.append_assoc]
  ciphertext := h.ciphertext
  position c := by
    show Function.update s.position s.calls _ c ≤ (s.queued ++ data.flatten).length
    rw [Function.update_apply]
    split_ifs
    · exact le_rfl
    · rw [List.length_append]
      exact (h.position c).trans (Nat.le_add_right _ _)
  behind := h.behind
  calls c hc :=
    (h.calls c).frame Iff.rfl (fun _ => ⟨rfl, rfl⟩) le_rfl le_rfl le_rfl rfl
      (Function.update_of_ne hc _ _)
  idle := h.idle
  notCalled c hc := h.notCalled c ((Nat.le_succ _).trans hc)
  call_lt := Nat.lt_succ_self _
  holder_ne := by
    have hcall := h.calls s.calls
    rw [h.notCalled _ le_rfl] at hcall
    exact hcall

/-- A call that is not sending runs. -/
theorem Inv.runs (h : Inv s) (hcall : s.phase call ≠ .notCalled)
    (hne : s.sendLock.holder ≠ some call) : Runs s call where
  toShared := h.toShared
  calls c _ := h.calls c
  idle := h.idle
  notCalled := h.notCalled
  call_lt := by
    rw [← not_le]
    intro hle
    exact hcall (h.notCalled call hle)
  holder_ne := hne

/-- The transport has sent what the call has handed over. -/
theorem Inv.sent (h : Inv s) {data : Bytes} (hcall : s.phase call = .sending method why data) :
    Runs { s with completed := s.completed ++ data, sendLock := s.sendLock.release } call := by
  obtain ⟨hholder, hdata, -⟩ : CallOk s call (.sending method why data) := hcall ▸ h.calls call
  have hne : ∀ c ≠ call, s.sendLock.holder ≠ some c := by
    intro c hc heq
    exact hc (Option.some.inj (heq.symm.trans hholder))
  refine ⟨⟨h.plaintext, h.ciphertext, h.position, ?_⟩, fun c hc => ?_, fun _ => hdata, h.notCalled,
    ?_, fun hc => by cases hc⟩
  · show s.completed ++ data <+: s.sent.flatten
    rw [hdata]
  · refine (h.calls c).frame (iff_of_false (by simp) (hne c hc))
      (fun hholder => absurd hholder (hne c hc)) le_rfl le_rfl ?_ rfl rfl
    show s.completed.length ≤ (s.completed ++ data).length
    rw [List.length_append]
    exact Nat.le_add_right _ _
  · rw [← not_le]
    intro hle
    cases (h.notCalled call hle).symm.trans hcall

/-- **Step lemma.** -/
theorem step_inv {a : Action} (h : Inv s) (hfails : a.fails = false) (hs : step s a = some s') :
    Inv s' := by
  cases a with
  | call method data ssl =>
    simp only [step] at hs
    split_ifs at hs
    · cases method with
      | writeAll =>
        cases hs
        have hruns : Runs { s with calls := s.calls + 1 } s.calls := by
          refine ⟨⟨h.plaintext, h.ciphertext, h.position, h.behind⟩, fun c _ => ?_, h.idle,
            fun c hc => h.notCalled c ((Nat.le_succ _).trans hc), Nat.lt_succ_self _, ?_⟩
          · exact (h.calls c).frame Iff.rfl (fun _ => ⟨rfl, rfl⟩) le_rfl le_rfl le_rfl rfl rfl
          · have hcall := h.calls s.calls
            rw [h.notCalled _ le_rfl] at hcall
            exact hcall
        exact hruns.setPhase hruns.holder_ne
      | read => exact (h.enter []).retrySslMethod hs
      | unwrap => cases hs
    · cases method with
      | writeAll => exact (h.enter data).retrySslMethod hs
      | read | unwrap => exact (h.enter []).retrySslMethod hs
  | grantSend call =>
    simp only [step] at hs
    split at hs
    next method why hcall =>
      obtain ⟨sendLock, hgrant, rfl⟩ := Option.map_eq_some_iff.1 hs
      obtain ⟨hfree, hholder⟩ := QueueLock.grant_holder hgrant
      obtain ⟨hne, hdone⟩ : CallOk s call (.waitSend method why) := hcall ▸ h.calls call
      have hruns : Runs s call := h.runs (by rw [hcall]; intro hc; cases hc) hne
      exact (hruns.hold hfree hholder).flush hdone
    next => cases hs
  | sendDone call ssl =>
    simp only [step] at hs
    split at hs
    next method why data hcall =>
      have hruns := h.sent hcall
      obtain ⟨-, hdata, hdone⟩ : CallOk s call (.sending method why data) := hcall ▸ h.calls call
      have hflushed : ∀ why' ≠ Why.wantWrite, (why' = .done → why = .done) → Inv (({ s with
          completed := s.completed ++ data
          sendLock := s.sendLock.release } : State).flushed call method why') := by
        intro why' hne heq
        refine hruns.flushed hne fun hwhy => ?_
        obtain ⟨hmark, hwritten⟩ := hdone (heq hwhy)
        refine ⟨?_, hwritten⟩
        show s.mark call ≤ (s.completed ++ data).length
        rw [hdata]
        exact hmark
      cases why with
      | wantWrite => exact hruns.retrySslMethod hs
      | wantRead =>
        cases hs
        exact hflushed _ (by intro hc; cases hc) id
      | done =>
        cases hs
        exact hflushed _ (by intro hc; cases hc) id
    next => cases hs
  | grantRecv call =>
    simp only [step] at hs
    split at hs
    next method hcall =>
      obtain ⟨recvLock, -, rfl⟩ := Option.map_eq_some_iff.1 hs
      have hne : CallOk s call (.waitRecv method) := hcall ▸ h.calls call
      have hruns : Runs s call := h.runs (by rw [hcall]; intro hc; cases hc) hne
      exact (hruns.recv recvLock s.reads s.stale).readinto method
    next => cases hs
  | received call data ssl =>
    simp only [step] at hs
    split at hs
    next method hcall =>
      have hne : CallOk s call (.receiving method) := hcall ▸ h.calls call
      have hruns : Runs s call := h.runs (by rw [hcall]; intro hc; cases hc) hne
      exact (hruns.recv _ s.reads _).retrySslMethod hs
    next => cases hs
  | fail call => cases hfails

/-- **What a TLS transport writes is in order.** -/
structure Ordered (s : State) : Prop where
  /-- the plaintext is accepted in the order in which it is queued, each byte once -/
  plaintext : s.written ++ s.backlog.flatten = s.queued
  /-- what is handed to the transport is a prefix of the ciphertext -/
  ciphertext : s.sent.flatten <+: s.cipher
  /-- one send of the transport at a time -/
  exclusive : ∀ c c' method method' why why' data data', s.phase c = .sending method why data →
    s.phase c' = .sending method' why' data' → c = c'
  /-- a send call returns when its plaintext is encrypted, and all ciphertext up to its last SSL call
      is sent -/
  returned : ∀ c, s.phase c = .returned .writeAll → s.position c ≤ s.written.length ∧
    s.mark c ≤ s.completed.length ∧ s.completed <+: s.sent.flatten

theorem Inv.toOrdered (h : Inv s) : Ordered s where
  plaintext := h.plaintext.symm
  ciphertext := ⟨s.writeBio, h.ciphertext.symm⟩
  exclusive c c' method method' why why' data data' hc hc' := by
    obtain ⟨h1, -, -⟩ : CallOk s c (.sending method why data) := hc ▸ h.calls c
    obtain ⟨h2, -, -⟩ : CallOk s c' (.sending method' why' data') := hc' ▸ h.calls c'
    exact Option.some.inj (h1.symm.trans h2)
  returned c hc := by
    obtain ⟨-, hmark, hwritten⟩ : CallOk s c (.returned .writeAll) := hc ▸ h.calls c
    exact ⟨hwritten rfl, hmark, h.behind⟩

/-- **In every run without failures of the transport and cancellations, what is written is in
    order.** -/
theorem ordered {as : List Action} (hfails : ∀ a ∈ as, a.fails = false)
    (h : Trans.run step {} as = some s) : Ordered s := by
  have hmeets : Trans.Meets step (fun _ a => a.fails = false) {} as :=
    Trans.meets_of_forall fun a ha _ => hfails a ha
  exact Inv.toOrdered (Trans.run_inv_of (fun _ _ _ hi hok hs => step_inv hi hok hs) Inv.init hmeets h)

/-- Two send calls; the first is only partly accepted and asks for more ciphertext, the second
    encrypts the rest for both. -/
theorem ordered_two_senders : ∃ s, Trans.run step {} [
      .call .writeAll [[1, 2, 3]] (.writes [(.accepts 2, [10]), (.raises .wantRead, [11])]),
      .call .writeAll [[4], [5]] (.writes [(.accepts 1, [12]), (.accepts 1, [13]),
        (.accepts 1, [14])]),
      .sendDone 0 (.writes []), .grantSend 1, .sendDone 1 (.writes []),
      .received 0 [9] (.writes [])] = some s ∧
    s.sent = [[10, 11], [12, 13, 14]] ∧ s.phase 0 = .returned .writeAll ∧ Ordered s := by
  obtain ⟨s, hs⟩ : ∃ s, Trans.run step {} [
    .call .writeAll [[1, 2, 3]] (.writes [(.accepts 2, [10]), (.raises .wantRead, [11])]),
    .call .writeAll [[4], [5]] (.writes [(.accepts 1, [12]), (.accepts 1, [13]),
      (.accepts 1, [14])]),
    .sendDone 0 (.writes []), .grantSend 1, .sendDone 1 (.writes []),
    .received 0 [9] (.writes [])] = some s := ⟨_, rfl⟩
  refine ⟨s, hs, ?_, ?_, ordered (by decide) hs⟩ <;> cases hs <;> rfl

end

end Tls

end EasyNetwork
