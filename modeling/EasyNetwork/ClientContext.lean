/-
  The exceptions of a datagram request handler: `_ClientContext` of the Unix datagram server
  (`servers/async_unix_datagram.py`) and `ClientErrorHandler` (`servers/_base.py`).

  The clients are in a weak dictionary, as long as a handler refers to them; an unnamed client is
  not put in there.  The steps enter and leave contexts in any order, and collect client objects.

  `aexit_handled_iff`: in every reachable state, an exception does not escape and its leaves are
  reported iff the client is named.
-/
import EasyNetwork.Exceptions
import EasyNetwork.Lib.ExceptionTree
import EasyNetwork.Lib.Trans
import Mathlib.Logic.Function.Basic

namespace EasyNetwork

namespace ClientContext

variable {χ α : Type}

/-- An exception that is no group. -/
inductive Raised (χ : Type) where
  | clientClosedError (exc : χ)
  /-- any other `Exception` -/
  | exception (exc : χ)
  | baseException (exc : χ)
  deriving DecidableEq, Repr

namespace Raised

/-- `isinstance(exc, ClientClosedError)`. -/
def isClientClosedError : Raised χ → Bool
  | .clientClosedError _ => true
  | .exception _ | .baseException _ => false

/-- `isinstance(exc, Exception)`. -/
def isException : Raised χ → Bool
  | .clientClosedError _ | .exception _ => true
  | .baseException _ => false

end Raised

/-- An exception, as it is raised; a group with a leaf that is no `Exception` is none, either. -/
abbrev Exc (χ : Type) := ExceptionTree (Raised χ)

def isException (exc : Exc χ) : Bool := exc.leaves.all Raised.isException

/-! ## The error handler -/

inductive Level where
  | warning
  | error
  deriving DecidableEq, Repr

/-- What is logged for `%s`. -/
inductive ClientAddress (α : Type) where
  /-- `"<unknown>"` -/
  | unknown
  | address (address : α)
  deriving DecidableEq, Repr

/-- A call of the logger. -/
structure Record (α χ : Type) where
  level : Level
  message : String
  clientAddress : Option (ClientAddress α) := none
  excInfo : Option (Exc χ) := none

/-- `ClientErrorHandler`. -/
structure ClientErrorHandler (α χ : Type) where
  /-- `none` if the callback raises an `Exception` -/
  clientAddressCb : Option α
  /-- `isinstance(exc, self.__suppress_errors)` -/
  suppressErrors : Raised χ → Bool

namespace ClientErrorHandler

/-- `__compute_client_address`. -/
def computeClientAddress (handler : ClientErrorHandler α χ) : ClientAddress α :=
  match handler.clientAddressCb with
  | some address => .address address
  | none => .unknown

/-- `"There have been attempts to do operation on closed client %s"`. -/
def closedClientMessage : String := "There have been attempts to do operation on closed client %s"

/-- `"Exception occurred during processing of request from %s"`. -/
def exceptionMessage : String := "Exception occurred during processing of request from %s"

/-- `__log_closed_client_errors`. -/
def logClosedClientErrors (handler : ClientErrorHandler α χ) (exc : Exc χ) : List (Record α χ) :=
  [⟨.warning, closedClientMessage, some handler.computeClientAddress, some exc⟩]

/-- `__log_exception`. -/
def logException (handler : ClientErrorHandler α χ) (exc : Exc χ) : List (Record α χ) :=
  let separator : Record α χ := { level := .error, message := String.ofList (.replicate 40 '-') }
  [separator, ⟨.error, exceptionMessage, some handler.computeClientAddress, some exc⟩, separator]

/-- `__exit__`: what it returns or raises, and what is logged. -/
def exit (handler : ClientErrorHandler α χ) :
    Option (Exc χ) → Except (Exc χ) Bool × List (Record α χ)
  | none => (.ok false, [])
  | some (.group message excs) =>
    let (connectionErrors, excVal) :=
      ExceptionTree.split Raised.isClientClosedError (.group message excs)
    let warnings := match connectionErrors with
      | some connectionErrors => handler.logClosedClientErrors connectionErrors
      | none => []
    let excVal := match excVal with
      | some excVal => (ExceptionTree.split handler.suppressErrors excVal).2
      | none => none
    match excVal with
    | none => (.ok true, warnings)
    | some excVal =>
      if isException excVal then (.ok true, warnings ++ handler.logException excVal)
      else (.error excVal, warnings)
  | some (.bare exc) =>
    if exc.isClientClosedError then (.ok true, handler.logClosedClientErrors (.bare exc))
    else if exc.isException then
      (.ok true, if handler.suppressErrors exc then [] else handler.logException (.bare exc))
    else (.ok false, [])

end ClientErrorHandler

/-! ## The contexts -/

/-- `UnixSocketAddress`. -/
inductive UnixSocketAddress where
  | unnamed
  | pathname (path : String)
  | abstractName (name : Bytes)
  deriving DecidableEq, Repr

def UnixSocketAddress.isUnnamed : UnixSocketAddress → Bool
  | .unnamed => true
  | .pathname _ | .abstractName _ => false

/-- `DatagramClientContext`, the key of the dictionary. -/
structure LowlevelClient where
  address : UnixSocketAddress
  server : ℕ
  deriving DecidableEq, Repr

inductive UnnamedAddressesBehavior where
  | ignore
  | warn
  | handle
  deriving DecidableEq, Repr

/-- A `_ClientAPI`, with its identity. -/
structure ClientAPI where
  id : ℕ
  context : LowlevelClient
  deriving DecidableEq, Repr

/-- `extra_attributes[UNIXClientAttribute.peer_name]()`. -/
def ClientAPI.peerName (client : ClientAPI) : UnixSocketAddress := client.context.address

/-- A context that has been entered; the handler refers to `client`. -/
structure Entered where
  lowlevelClient : LowlevelClient
  client : Option ClientAPI
  deriving DecidableEq, Repr

structure State (χ : Type) where
  clientCache : LowlevelClient → Option ClientAPI := fun _ => none
  /-- the number of client objects that have been created -/
  created : ℕ := 0
  entered : List Entered := []
  logged : List (Record UnixSocketAddress χ) := []

/-- A new client object. -/
def State.newClient (s : State χ) (lowlevelClient : LowlevelClient) : State χ × ClientAPI :=
  ({ s with created := s.created + 1 }, ⟨s.created, lowlevelClient⟩)

/-- `"A datagram received from an unbound UNIX datagram socket has been dropped."`. -/
def droppedRecord : Record α χ where
  level := .warning
  message := "A datagram received from an unbound UNIX datagram socket has been dropped."

/-- `__aenter__`. -/
def aenter (behavior : UnnamedAddressesBehavior) (s : State χ) (lowlevelClient : LowlevelClient) :
    State χ × Option ClientAPI :=
  if lowlevelClient.address.isUnnamed then
    match behavior with
    | .ignore => (s, none)
    | .warn => ({ s with logged := s.logged ++ [droppedRecord] }, none)
    | .handle =>
      let (s, client) := s.newClient lowlevelClient
      (s, some client)
  else
    match s.clientCache lowlevelClient with
    | some client => (s, some client)
    | none =>
      let (s, client) := s.newClient lowlevelClient
      ({ s with clientCache := Function.update s.clientCache lowlevelClient (some client) },
        some client)

/-- What leaves `__aexit__`. -/
inductive Escaped (χ : Type) where
  /-- the client is not in the dictionary -/
  | keyError (lowlevelClient : LowlevelClient)
  | raised (exc : Exc χ)

/-- `__aexit__`. -/
def aexit (clientCache : LowlevelClient → Option ClientAPI) (lowlevelClient : LowlevelClient) :
    Option (Exc χ) → Except (Escaped χ) Bool × List (Record UnixSocketAddress χ)
  | none => (.ok false, [])
  | some exc =>
    match clientCache lowlevelClient with
    | none => (.error (.keyError lowlevelClient), [])
    | some client =>
      let handler : ClientErrorHandler UnixSocketAddress χ :=
        ⟨some client.peerName, fun _ => false⟩
      let (result, records) := handler.exit (some exc)
      (result.mapError .raised, records)

inductive Action (χ : Type) where
  | enter (lowlevelClient : LowlevelClient)
  /-- the `i`-th of the contexts is left -/
  | leave (i : ℕ) (exc : Option (Exc χ))
  /-- the object in the dictionary is collected: nothing else refers to it -/
  | collect (lowlevelClient : LowlevelClient)

/-- A handler refers to the client object. -/
def State.refersTo (s : State χ) (client : ClientAPI) : Bool :=
  s.entered.any fun e => e.client = some client

/-- One step of an interleaving. -/
def step (behavior : UnnamedAddressesBehavior) (s : State χ) : Action χ → Option (State χ)
  | .enter lowlevelClient =>
    let (s, client) := aenter behavior s lowlevelClient
    some { s with entered := s.entered ++ [⟨lowlevelClient, client⟩] }
  | .leave i exc =>
    match s.entered[i]? with
    | none => none
    | some e =>
      some { s with
        entered := s.entered.eraseIdx i
        logged := s.logged ++ (aexit s.clientCache e.lowlevelClient exc).2 }
  | .collect lowlevelClient =>
    match s.clientCache lowlevelClient with
    | none => none
    | some client =>
      if s.refersTo client then none
      else some { s with clientCache := Function.update s.clientCache lowlevelClient none }

/-! ## What is reported -/

/-- A record, with the leaves of its exception. -/
def Record.summary (record : Record α χ) :
    Level × String × Option (ClientAddress α) × List (Raised χ) :=
  (record.level, record.message, record.clientAddress,
    ExceptionTree.leavesAll record.excInfo.toList)

/-- The leaves of the exceptions that are logged with the message. -/
def reportedIn (message : String) (records : List (Record α χ)) : List (Raised χ) :=
  records.flatMap fun record =>
    if record.message = message then ExceptionTree.leavesAll record.excInfo.toList else []

namespace ClientErrorHandler
variable {handler : ClientErrorHandler α χ} {exc : Exc χ}

/-- The warning about the leaves of class `ClientClosedError`. -/
def warningOf (handler : ClientErrorHandler α χ) :
    List (Raised χ) → List (Level × String × Option (ClientAddress α) × List (Raised χ))
  | [] => []
  | leaf :: leaves =>
    [(.warning, closedClientMessage, some handler.computeClientAddress, leaf :: leaves)]

/-- The report of other leaves, between two lines. -/
def errorsOf (handler : ClientErrorHandler α χ) :
    List (Raised χ) → List (Level × String × Option (ClientAddress α) × List (Raised χ))
  | [] => []
  | leaf :: leaves =>
    [(.error, String.ofList (.replicate 40 '-'), none, []),
      (.error, exceptionMessage, some handler.computeClientAddress, leaf :: leaves),
      (.error, String.ofList (.replicate 40 '-'), none, [])]

/-- The leaves that are neither of class `ClientClosedError` nor suppressed. -/
def others (handler : ClientErrorHandler α χ) (leaves : List (Raised χ)) : List (Raised χ) :=
  (leaves.filter fun exc => !exc.isClientClosedError).filter fun exc => !handler.suppressErrors exc

theorem summary_logClosedClientErrors (hne : exc.leaves ≠ []) :
    (handler.logClosedClientErrors exc).map Record.summary = handler.warningOf exc.leaves := by
  obtain ⟨leaf, leaves, h⟩ := List.exists_cons_of_ne_nil hne
  simp only [logClosedClientErrors, List.map_cons, List.map_nil, Record.summary, Option.toList_some,
    ExceptionTree.leavesAll_cons, ExceptionTree.leavesAll_nil, List.append_nil, h, warningOf]

theorem summary_logException (hne : exc.leaves ≠ []) :
    (handler.logException exc).map Record.summary = handler.errorsOf exc.leaves := by
  obtain ⟨leaf, leaves, h⟩ := List.exists_cons_of_ne_nil hne
  simp only [logException, List.map_cons, List.map_nil, Record.summary, Option.toList_some,
    Option.toList_none, ExceptionTree.leavesAll_cons, ExceptionTree.leavesAll_nil, List.append_nil,
    h, errorsOf]

/-- A part of an exception is an exception, too. -/
theorem isException_of_leaves {exc part : Exc χ} (h : isException exc)
    (hpart : ∀ leaf ∈ part.leaves, leaf ∈ exc.leaves) : isException part := by
  rw [isException, List.all_eq_true] at h ⊢
  exact fun leaf hleaf => h leaf (hpart leaf hleaf)

/-- **`__exit__` returns `True`, and what it logs depends on the leaves only.** -/
theorem exit_spec (h : isException exc) : ∃ records,
    handler.exit (some exc) = (.ok true, records) ∧
      records.map Record.summary =
        handler.warningOf (exc.leaves.filter Raised.isClientClosedError) ++
          handler.errorsOf (handler.others exc.leaves) := by
  cases exc with
  | bare exc =>
    have hexc : exc.isException = true := by
      simpa only [isException, ExceptionTree.leaves, List.all_cons, List.all_nil, Bool.and_true]
        using h
    have hne : (ExceptionTree.bare exc).leaves ≠ [] := by
      rw [ExceptionTree.leaves]
      exact List.cons_ne_nil exc []
    rw [exit, others, ExceptionTree.leaves]
    cases hclosed : exc.isClientClosedError with
    | true =>
      refine ⟨_, if_pos rfl, ?_⟩
      rw [summary_logClosedClientErrors hne, ExceptionTree.leaves]
      simp [hclosed, errorsOf]
    | false =>
      cases hsuppressed : handler.suppressErrors exc with
      | true => exact ⟨[], by simp [hexc], by simp [hclosed, hsuppressed, warningOf, errorsOf]⟩
      | false =>
        refine ⟨handler.logException (.bare exc), by simp [hexc], ?_⟩
        rw [summary_logException hne, ExceptionTree.leaves]
        simp [hclosed, hsuppressed, warningOf]
  | group message excs =>
    rw [exit, others]
    obtain ⟨hclosed, hrest⟩ :=
      ExceptionTree.split_cases Raised.isClientClosedError (ExceptionTree.group message excs)
    generalize hsplit : ExceptionTree.split Raised.isClientClosedError
      (ExceptionTree.group message excs) = parts at hclosed hrest
    obtain ⟨connectionErrors, excVal⟩ := parts
    -- the warning
    have hwarning : (match connectionErrors with
        | some connectionErrors => handler.logClosedClientErrors connectionErrors
        | none => []).map Record.summary = handler.warningOf
          ((ExceptionTree.group message excs).leaves.filter Raised.isClientClosedError) := by
      rcases hclosed with ⟨rfl, hnil⟩ | ⟨closed, rfl, hleaves, hne⟩
      · rw [hnil]
        rfl
      · rw [← hleaves]
        exact summary_logClosedClientErrors (hleaves ▸ hne)
    -- the report
    rcases hrest with ⟨rfl, hnil⟩ | ⟨rest, rfl, hleaves, -⟩
    · refine ⟨_, rfl, ?_⟩
      rw [hwarning, hnil]
      exact (List.append_nil _).symm
    · obtain ⟨-, hothers⟩ := ExceptionTree.split_cases handler.suppressErrors rest
      rw [hleaves] at hothers
      dsimp only
      rcases hothers with ⟨hnone, hnil⟩ | ⟨others, hsome, hleaves', hne⟩
      · simp only [hnone]
        refine ⟨_, rfl, ?_⟩
        rw [hwarning, hnil]
        exact (List.append_nil _).symm
      · have hothers : isException others := by
          refine isException_of_leaves h fun leaf hleaf => ?_
          rw [hleaves'] at hleaf
          exact List.mem_of_mem_filter (List.mem_of_mem_filter hleaf)
        simp only [hsome, hothers, if_true]
        refine ⟨_, rfl, ?_⟩
        rw [List.map_append, hwarning, summary_logException (hleaves' ▸ hne), hleaves']

end ClientErrorHandler

theorem reportedIn_eq (message : String) (records : List (Record α χ)) :
    reportedIn message records =
      (records.map Record.summary).flatMap fun r => if r.2.1 = message then r.2.2.2 else [] := by
  rw [List.flatMap_map]
  rfl

namespace ClientErrorHandler

theorem closedClientMessage_ne : closedClientMessage ≠ exceptionMessage := by decide

/-- The two kinds of leaves are found under their own message. -/
theorem flatMap_reports (handler : ClientErrorHandler α χ) (closed others : List (Raised χ)) :
    let reports := handler.warningOf closed ++ handler.errorsOf others
    (reports.flatMap fun r => if r.2.1 = closedClientMessage then r.2.2.2 else []) = closed ∧
      (reports.flatMap fun r => if r.2.1 = exceptionMessage then r.2.2.2 else []) = others := by
  cases closed <;> cases others <;>
    simp [warningOf, errorsOf, closedClientMessage_ne, closedClientMessage_ne.symm]

end ClientErrorHandler

/-- The exception does not leave the context, and each of its leaves is reported once; a bare
    exception is treated like a group. -/
structure Handled (exit : Option (Exc χ) → Except (Escaped χ) Bool × List (Record α χ))
    (exc : Exc χ) : Prop where
  returns : (exit (some exc)).1 = .ok true
  warned : reportedIn ClientErrorHandler.closedClientMessage (exit (some exc)).2 =
    exc.leaves.filter Raised.isClientClosedError
  reported : reportedIn ClientErrorHandler.exceptionMessage (exit (some exc)).2 =
    exc.leaves.filter fun leaf => !leaf.isClientClosedError
  bare : ∀ leaf message, exc = .bare leaf →
    (exit (some exc)).2.map Record.summary =
      (exit (some (.group message [.bare leaf]))).2.map Record.summary

/-- **A client that is in the dictionary.** -/
theorem handled_aexit {clientCache : LowlevelClient → Option ClientAPI}
    {lowlevelClient : LowlevelClient} {client : ClientAPI} {exc : Exc χ}
    (hcache : clientCache lowlevelClient = some client) (hexc : isException exc) :
    Handled (aexit clientCache lowlevelClient) exc := by
  let handler : ClientErrorHandler UnixSocketAddress χ := ⟨some client.peerName, fun _ => false⟩
  have hexit : ∀ {exc : Exc χ}, isException exc →
      (aexit clientCache lowlevelClient (some exc)).1 = .ok true ∧
        (aexit clientCache lowlevelClient (some exc)).2.map Record.summary =
          handler.warningOf (exc.leaves.filter Raised.isClientClosedError) ++
            handler.errorsOf (exc.leaves.filter fun leaf => !leaf.isClientClosedError) := by
    intro exc hexc
    obtain ⟨records, hrecords, hsummary⟩ := handler.exit_spec hexc
    have hothers : handler.others exc.leaves =
        exc.leaves.filter fun leaf => !leaf.isClientClosedError := by
      rw [ClientErrorHandler.others]
      exact List.filter_eq_self.2 fun _ _ => rfl
    simp only [aexit, hcache]
    rw [show ClientErrorHandler.exit ⟨some client.peerName, fun _ => false⟩ (some exc) =
      (.ok true, records) from hrecords, ← hothers]
    exact ⟨rfl, hsummary⟩
  obtain ⟨hreturns, hsummary⟩ := hexit hexc
  refine ⟨hreturns, ?_, ?_, ?_⟩
  · rw [reportedIn_eq, hsummary]
    exact (handler.flatMap_reports _ _).1
  · rw [reportedIn_eq, hsummary]
    exact (handler.flatMap_reports _ _).2
  · rintro leaf message rfl
    have hgroup : isException (.group message [.bare leaf] : Exc χ) := by
      simpa [isException, ExceptionTree.leaves] using hexc
    rw [hsummary, (hexit hgroup).2]
    simp only [ExceptionTree.leaves, ExceptionTree.leavesAll_cons, ExceptionTree.leavesAll_nil,
      List.append_nil]

/-! ## Every run -/

/-- What every step keeps: the client of a handler is in the dictionary if it is named, and only
    then. -/
structure Inv (s : State χ) : Prop where
  named : ∀ e ∈ s.entered, e.lowlevelClient.address.isUnnamed = false →
    ∃ client, e.client = some client ∧ s.clientCache e.lowlevelClient = some client
  unnamed : ∀ lowlevelClient, lowlevelClient.address.isUnnamed = true →
    s.clientCache lowlevelClient = none

theorem Inv.init : Inv ({} : State χ) := ⟨nofun, fun _ _ => rfl⟩

/-- `__aenter__`. -/
theorem Inv.enter {behavior : UnnamedAddressesBehavior} {s s' : State χ}
    {lowlevelClient : LowlevelClient} {client : Option ClientAPI} (h : Inv s)
    (haenter : aenter behavior s lowlevelClient = (s', client)) :
    Inv { s' with entered := s'.entered ++ [⟨lowlevelClient, client⟩] } := by
  simp only [aenter] at haenter
  split_ifs at haenter with hunnamed
  · -- an unnamed client is not put in the dictionary
    have hkeep : s'.clientCache = s.clientCache ∧ s'.entered = s.entered := by
      cases behavior <;> cases haenter <;> exact ⟨rfl, rfl⟩
    refine ⟨fun e he hnamed => ?_, fun key hkey => ?_⟩
    · simp only [hkeep.1, hkeep.2] at he ⊢
      rcases List.mem_append.1 he with he | he
      · exact h.named e he hnamed
      · obtain rfl := List.mem_singleton.1 he
        cases hnamed.symm.trans hunnamed
    · simp only [hkeep.1]
      exact h.unnamed key hkey
  · rcases hcache : s.clientCache lowlevelClient with _ | client'
    · simp only [hcache, State.newClient] at haenter
      cases haenter
      refine ⟨fun e he hnamed => ?_, fun key hkey => ?_⟩
      · rcases List.mem_append.1 he with he | he
        · obtain ⟨client', hclient', hcache'⟩ := h.named e he hnamed
          have hne : e.lowlevelClient ≠ lowlevelClient := by
            intro heq
            rw [heq, hcache] at hcache'
            cases hcache'
          exact ⟨client', hclient', (Function.update_of_ne hne _ _).trans hcache'⟩
        · obtain rfl := List.mem_singleton.1 he
          exact ⟨_, rfl, Function.update_self _ _ _⟩
      · have hne : key ≠ lowlevelClient := by
          rintro rfl
          exact hunnamed hkey
        exact (Function.update_of_ne hne _ _).trans (h.unnamed key hkey)
    · simp only [hcache] at haenter
      cases haenter
      refine ⟨fun e he hnamed => ?_, h.unnamed⟩
      rcases List.mem_append.1 he with he | he
      · exact h.named e he hnamed
      · obtain rfl := List.mem_singleton.1 he
        exact ⟨client', rfl, hcache⟩

theorem Inv.step {behavior : UnnamedAddressesBehavior} {s s' : State χ} {a : Action χ} (h : Inv s)
    (hstep : step behavior s a = some s') : Inv s' := by
  cases a with
  | enter lowlevelClient =>
    cases hstep
    exact h.enter rfl
  | leave i exc =>
    simp only [ClientContext.step] at hstep
    split at hstep
    · cases hstep
    · cases hstep
      exact ⟨fun e he => h.named e (List.mem_of_mem_eraseIdx he), h.unnamed⟩
  | collect lowlevelClient =>
    simp only [ClientContext.step] at hstep
    split at hstep
    · cases hstep
    · next client hclient =>
      split_ifs at hstep with hrefers
      cases hstep
      refine ⟨fun e he hnamed => ?_, fun key hkey => ?_⟩
      · obtain ⟨client', hclient', hcache⟩ := h.named e he hnamed
        have hne : e.lowlevelClient ≠ lowlevelClient := by
          rintro rfl
          obtain rfl : client = client' := Option.some.inj (hclient.symm.trans hcache)
          exact hrefers (List.any_eq_true.2 ⟨e, he, decide_eq_true hclient'⟩)
        exact ⟨client', hclient', (Function.update_of_ne hne _ _).trans hcache⟩
      · by_cases hkey' : key = lowlevelClient
        · rw [hkey']
          exact Function.update_self _ _ _
        · exact (Function.update_of_ne hkey' _ _).trans (h.unnamed key hkey)

/-- **In every run, an exception of a handler is dealt with iff the client is named.**  An unnamed
    client is not in the dictionary in which `__aexit__` looks for it. -/
theorem aexit_handled_iff {behavior : UnnamedAddressesBehavior} {as : List (Action χ)} {s : State χ}
    (h : Trans.run (step behavior) {} as = some s) {e : Entered} (he : e ∈ s.entered) {exc : Exc χ}
    (hexc : isException exc) :
    Handled (aexit s.clientCache e.lowlevelClient) exc ↔
      e.lowlevelClient.address.isUnnamed = false := by
  have hinv : Inv s := Trans.run_inv (fun _ _ _ hinv hstep => hinv.step hstep) Inv.init h
  cases hunnamed : e.lowlevelClient.address.isUnnamed with
  | true =>
    refine iff_of_false (fun hhandled => ?_) Bool.noConfusion
    have hreturns := hhandled.returns
    rw [aexit, hinv.unnamed _ hunnamed] at hreturns
    cases hreturns
  | false =>
    obtain ⟨client, -, hcache⟩ := hinv.named e he hunnamed
    exact iff_of_true (handled_aexit hcache hexc) rfl

/-- A client with a name: a group of both kinds. -/
theorem aexit_handled_named :
    ∃ s : State ℕ,
      Trans.run (step .handle) {} [.enter ⟨.pathname "/tmp/client", 0⟩] = some s ∧
        Handled (aexit s.clientCache ⟨.pathname "/tmp/client", 0⟩)
          (.group "errors" [.bare (.exception 1), .bare (.clientClosedError 2)]) := by
  obtain ⟨s, hs⟩ : ∃ s : State ℕ,
      Trans.run (step .handle) {} [.enter ⟨.pathname "/tmp/client", 0⟩] = some s := ⟨_, rfl⟩
  have he : ⟨⟨.pathname "/tmp/client", 0⟩, some ⟨0, ⟨.pathname "/tmp/client", 0⟩⟩⟩ ∈ s.entered := by
    cases hs
    exact List.mem_cons_self
  exact ⟨s, hs, (aexit_handled_iff hs he rfl).2 rfl⟩

/-- The exception of a handler of an unnamed client: a `KeyError` leaves the context, and nothing is
    logged. -/
theorem unnamed_keyError :
    ∃ s : State ℕ, Trans.run (step .handle) {} [.enter ⟨.unnamed, 0⟩] = some s ∧
      aexit s.clientCache ⟨.unnamed, 0⟩ (some (.bare (.exception 1))) =
        (.error (.keyError ⟨.unnamed, 0⟩), []) ∧
      ¬ Handled (aexit s.clientCache ⟨.unnamed, 0⟩) (.bare (.exception 1)) := by
  refine ⟨_, rfl, rfl, fun h => ?_⟩
  cases h.returns

end ClientContext

end EasyNetwork
