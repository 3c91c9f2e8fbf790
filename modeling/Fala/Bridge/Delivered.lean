import Fala.Bridge.Once
import Fala.Durable.History

/-! Any number of transport attempts, each of which may end at any statement. -/

namespace Fala.Bridge
open Durable Journal Domain Program

/-- An attempt and how many of its statements succeed before it ends. -/
abbrev TransportAttempt := TransportCall × Option ℕ

/-- The databases that an attempt leaves. -/
def Ends.attempt (e : Ends) (a : TransportAttempt) : Ends :=
  ((deliverLocalBridge a.1).run ⟨e, a.2⟩).2.store

/-- A delivery that the target has not imported, and that neither end has recorded under the keys
    of the calls; it may have been delivered on the source by other means. -/
structure Undelivered (row : BridgeDelivery) (calls : List TransportCall) (e : Ends) : Prop where
  here : ∀ c ∈ calls, (c.sourceRunId, c.deliveryId) = row.key
  stored : e.source.bridgeOutbox.find? row.key = some row
  undelivered : row.status = "pending" → ∀ c ∈ calls, (c.deliverRecord row).Unmade e.source
  unimported : ∀ d, e.target.bridgeInbox.find? (row.target.runId, row.id) = some d →
    d.status ≠ "imported"
  unmade : ∀ c ∈ calls, (c.importRecord row).Unmade e.target

/-- The source holds the change of one delivery, or none when the row was delivered before. -/
def Delivered (row : BridgeDelivery) (calls : List TransportCall) (s s' : Database) : Prop :=
  row.status = "delivered" ∧ s' = s ∨ ∃ c ∈ calls, c.DeliveredOnce row s s'

/-- What attempts from `start` have done: nothing, the import, or the import and the delivery. -/
structure Progress (row : BridgeDelivery) (calls : List TransportCall) (start e : Ends) : Prop where
  target : e.target = start.target ∨ ∃ c ∈ calls, c.ImportedOnce row start.target e.target
  source : e.source = start.source ∨ (∃ c ∈ calls, c.DeliveredOnce row start.source e.source) ∧
    ∃ c ∈ calls, c.ImportedOnce row start.target e.target

variable {row current : BridgeDelivery} {calls : List TransportCall} {c : TransportCall}
  {start e : Ends}

theorem Progress.none : Progress row calls start start := ⟨.inl rfl, .inl rfl⟩

theorem TransportCall.DeliveredOnce.found {s s' : Database} (delivered : c.DeliveredOnce row s s') :
    ∃ last, s'.bridgeOutbox.find? row.key = some last ∧ last.status = "delivered" ∧
      last.id = row.id ∧ last.target = row.target := by
  obtain ⟨budget, -, rows⟩ := delivered.outbox
  exact ⟨_, Table.find?_of_filter rows, rfl, rfl, rfl⟩

theorem Progress.reads (progress : Progress row calls start e) (undelivered : Undelivered row calls start)
    (found : e.source.bridgeOutbox.find? row.key = some current) :
    current = row ∧ e.source = start.source ∨
      current.status = "delivered" ∧ current.id = row.id ∧ current.target = row.target ∧
        ∃ c ∈ calls, c.ImportedOnce row start.target e.target := by
  rcases progress.source with same | ⟨⟨d, -, delivered⟩, imported⟩
  · rw [same] at found
    exact .inl ⟨Option.some.inj (found.symm.trans undelivered.stored), same⟩
  · obtain ⟨last, there, status, id, target⟩ := delivered.found
    cases found.symm.trans there
    exact .inr ⟨status, id, target, imported⟩

theorem Progress.imports (progress : Progress row calls start e)
    (undelivered : Undelivered row calls start) (called : c ∈ calls)
    (found : e.source.bridgeOutbox.find? row.key = some current) :
    (importBridgeDelivery current c.stableImportKey).Completes e.target
      fun t' => ∃ c ∈ calls, c.ImportedOnce row start.target t' := by
  have again (same : current.id = row.id ∧ current.target = row.target)
      (done : ∃ c ∈ calls, c.ImportedOnce row start.target e.target) :
      (importBridgeDelivery current c.stableImportKey).Completes e.target
        fun t' => ∃ c ∈ calls, c.ImportedOnce row start.target t' := by
    obtain ⟨i, listed, imported⟩ := done
    obtain ⟨d, rows, status, -⟩ := imported.inbox
    have place : (importedRow current c.stableImportKey).key = (row.target.runId, row.id) :=
      Prod.ext (congrArg RunRef.runId same.2) same.1
    refine import_completes fun u impulse t' _ h => ?_
    have stored := place ▸ Table.find?_of_filter rows
    rw [importBody_again stored status h]
    exact ⟨i, listed, imported⟩
  rcases progress.reads undelivered found with ⟨rfl, -⟩ | ⟨-, id, target, done⟩
  · rcases progress.target with same | done
    · rw [same]
      exact import_completes fun u impulse t' made h => ⟨c, called,
        importBody_once made undelivered.unimported (undelivered.unmade c called) h⟩
    · exact again ⟨rfl, rfl⟩ done
  · exact again ⟨id, target⟩ done

theorem Progress.delivers (progress : Progress row calls start e)
    (undelivered : Undelivered row calls start) (called : c ∈ calls) :
    (deliverBridgeDelivery c.delivery).Completes e.source (Delivered row calls start.source) := by
  have here := undelivered.here c called
  rcases progress.source with same | ⟨⟨d, listed, delivered⟩, -⟩
  · have stored := undelivered.stored
    rw [same]
    by_cases pending : row.status = "pending"
    · exact (deliver_completes here stored pending (undelivered.undelivered pending c called)).imp
        fun s' done => .inr ⟨c, called, done⟩
    · by_cases delivered : row.status = "delivered"
      · exact (deliver_again (here ▸ stored) delivered).imp fun s' same => .inl ⟨delivered, same⟩
      · exact deliver_refused (here ▸ stored) pending delivered
  · obtain ⟨last, there, status, -⟩ := delivered.found
    exact (deliver_again (here ▸ there) status).imp fun s' same => .inr ⟨d, listed, same ▸ delivered⟩

theorem onSource_reads {α : Type} {p : Sql α} (reads : ReadOnly p) : ReadOnly (onSource p) :=
  .focus (fun _ => rfl) reads

theorem onTarget_reads {α : Type} {p : Sql α} (reads : ReadOnly p) : ReadOnly (onTarget p) :=
  .focus (fun _ => rfl) reads

theorem exactBridgeCommand_reads (runId key commandType : String) (payload : Text) :
    ReadOnly (exactBridgeCommand runId key commandType payload) := by
  unfold exactBridgeCommand
  split
  · exact .pure _
  · refine .bind (commandByKey_reads _ _) fun found => ?_
    cases found with
    | none => exact .pure _
    | some stored =>
      dsimp only
      split
      · exact .pure _
      · split
        · exact .pure _
        · exact .raise _

/-- The two transactions of an attempt, with the row that it read. -/
def transfer (c : TransportCall) (current : BridgeDelivery) (sourceReplayed importedReplayed : Bool) :
    Program Ends BridgeTransportResult := do
  let imported ← onTarget (importBridgeDelivery current c.stableImportKey)
  let delivered ← onSource (deliverBridgeDelivery c.delivery)
  return ⟨delivered, imported, sourceReplayed, importedReplayed⟩

theorem deliverLocalBridge_transfers {P : Program Ends BridgeTransportResult → Prop}
    (read : ∀ {α : Type} {p : Program Ends α} {f : α → Program Ends BridgeTransportResult},
      ReadOnly p → (∀ a, p.eval e = (.ok a, e) → P (f a)) → P (p >>= f))
    (transfers : ∀ current sourceReplayed importedReplayed,
      e.source.bridgeOutbox.find? (c.sourceRunId, c.deliveryId) = some current →
      P (transfer c current sourceReplayed importedReplayed)) : P (deliverLocalBridge c) := by
  refine read (.require _ _) fun _ _ => read (.require _ _) fun _ _ => read (.require _ _) fun _ _ =>
    read (onSource_reads (getBridge_reads _ _ _)) fun current found => ?_
  obtain ⟨_, got, -⟩ := focus_ok.mp found
  have stored := (getBridge_known got).2
  refine read (onSource_reads (exactBridgeCommand_reads _ _ _ _)) fun sourceReplayed _ =>
    read (onTarget_reads (.fetch _)) fun _ _ =>
    read (onTarget_reads (exactBridgeCommand_reads _ _ _ _)) fun importedReplayed _ => ?_
  exact transfers current sourceReplayed importedReplayed stored

theorem Progress.imported {d : BridgeDelivery} {middle : Ends} (progress : Progress row calls start e)
    (undelivered : Undelivered row calls start) (called : c ∈ calls)
    (found : e.source.bridgeOutbox.find? row.key = some current)
    (returned : (onTarget (importBridgeDelivery current c.stableImportKey)).eval e = (.ok d, middle)) :
    Progress row calls start middle ∧ ∃ c ∈ calls, c.ImportedOnce row start.target middle.target := by
  obtain ⟨t', import_, rfl⟩ := focus_ok.mp returned
  have done := (progress.imports undelivered called found).returned d t' import_
  exact ⟨⟨.inr done, progress.source.imp id fun delivered => ⟨delivered.1, done⟩⟩, done⟩

theorem Progress.attempt (progress : Progress row calls start e)
    (undelivered : Undelivered row calls start) (called : c ∈ calls) :
    (deliverLocalBridge c).Leaves e (Progress row calls start) := by
  refine deliverLocalBridge_transfers (P := fun p => p.Leaves e (Progress row calls start))
    (fun reads rest => .afterRead reads progress rest) fun current _ _ found => ?_
  have stored : e.source.bridgeOutbox.find? row.key = some current :=
    undelivered.here c called ▸ found
  refine .bind (.focus fun faults => ?_) fun d middle returned => ?_
  · rcases (progress.imports undelivered called stored).leaves faults with same | done
    · rw [same]
      exact progress
    · exact ⟨.inr done, progress.source.imp id fun delivered => ⟨delivered.1, done⟩⟩
  · obtain ⟨progress, imported⟩ := progress.imported undelivered called stored returned
    have delivers := progress.delivers undelivered called
    have written (s' : Database)
        (done : s' = middle.source ∨ Delivered row calls start.source s') :
        Progress row calls start { middle with source := s' } := by
      rcases done with rfl | ⟨-, rfl⟩ | done
      · exact progress
      · exact ⟨progress.target, .inl rfl⟩
      · exact ⟨progress.target, .inr ⟨done, imported⟩⟩
    refine .bind (.focus fun faults => written _ (delivers.leaves faults)) fun _ last returned =>
      .ofReadOnly (.pure _) ?_
    obtain ⟨s', delivery, rfl⟩ := focus_ok.mp returned
    exact written s' (.inr (delivers.returned _ s' delivery))

theorem Progress.completed {result : BridgeTransportResult} {e' : Ends}
    (progress : Progress row calls start e) (undelivered : Undelivered row calls start)
    (called : c ∈ calls) (returned : (deliverLocalBridge c).eval e = (.ok result, e')) :
    (∃ i ∈ calls, i.ImportedOnce row start.target e'.target) ∧
      Delivered row calls start.source e'.source := by
  revert returned
  refine deliverLocalBridge_transfers (e := e) (P := fun p => p.eval e = (.ok result, e') → _)
    (fun {_ p _} reads rest returned => ?_) fun current _ _ found returned => ?_
  · obtain ⟨a, middle, first, second⟩ := bind_ok.mp returned
    have same := reads.eval e
    rw [first] at same
    subst same
    exact rest a first second
  · have stored : e.source.bridgeOutbox.find? row.key = some current :=
      undelivered.here c called ▸ found
    simp only [transfer, bind_ok, pure_ok] at returned
    obtain ⟨d, middle, import_, last, _, delivery, -, rfl⟩ := returned
    obtain ⟨progress, imported⟩ := progress.imported undelivered called stored import_
    obtain ⟨s', made, rfl⟩ := focus_ok.mp delivery
    exact ⟨imported, (progress.delivers undelivered called).returned last s' made⟩

/-- After any number of attempts, each ended by a crash at any of its statements or by its own
    error, an attempt that returns leaves the target with the change of one import and the source
    with the change of one delivery. -/
theorem delivered_once {history : List TransportAttempt} {last : TransportAttempt}
    {result : BridgeTransportResult} {final : Connection Ends}
    (undelivered : Undelivered row ((history ++ [last]).map Prod.fst) start)
    (returned : (deliverLocalBridge last.1).run ⟨Durable.execute Ends.attempt start history, last.2⟩ =
      (.ok result, final)) :
    (∃ c ∈ (history ++ [last]).map Prod.fst, c.ImportedOnce row start.target final.store.target) ∧
      Delivered row ((history ++ [last]).map Prod.fst) start.source final.store.source := by
  have reached : ∀ (part : List TransportAttempt) (e : Ends), (∀ a ∈ part, a ∈ history) →
      Progress row ((history ++ [last]).map Prod.fst) start e →
      Progress row ((history ++ [last]).map Prod.fst) start (Durable.execute Ends.attempt e part) := by
    intro part
    induction part with
    | nil => exact fun _ _ progress => progress
    | cons a rest ih =>
      intro e within progress
      have called : a.1 ∈ (history ++ [last]).map Prod.fst :=
        List.mem_map_of_mem (List.mem_append_left _ (within a List.mem_cons_self))
      exact ih _ (fun b listed => within b (List.mem_cons_of_mem a listed))
        (progress.attempt undelivered called a.2)
  have called : last.1 ∈ (history ++ [last]).map Prod.fst := List.mem_map_of_mem (by simp)
  exact (reached history start (fun _ listed => listed) .none).completed undelivered called
    (eval_of_run returned)

def firstTransport : TransportCall := ⟨"r", "d", "1", "", ""⟩

def secondTransport : TransportCall := ⟨"r", "d", "2", "", ""⟩

/-- The databases after an attempt that ended between its two transactions. -/
def halfDelivered : Ends :=
  Durable.execute Ends.attempt ⟨oneDelivery, oneRun "t"⟩ [(firstTransport, some 20)]

/-- An attempt that ended after the import, and one that finds the delivery to do. -/
theorem delivered_once_resumed :
    ∃ result final, (deliverLocalBridge secondTransport).run ⟨halfDelivered, none⟩ = (.ok result, final) ∧
      (∃ c ∈ [firstTransport, secondTransport],
        c.ImportedOnce pendingDelivery (oneRun "t") final.store.target) ∧
      Delivered pendingDelivery [firstTransport, secondTransport] oneDelivery final.store.source := by
  have undelivered : Undelivered pendingDelivery [firstTransport, secondTransport]
      ⟨oneDelivery, oneRun "t"⟩ := {
    here := by decide
    stored := by decide
    undelivered := fun _ _ _ => BridgeRecord.unmade_of_empty rfl rfl
    unimported := fun _ found => absurd found (by simp [oneRun, Database.empty, Table.find?, Table.empty])
    unmade := fun _ _ => BridgeRecord.unmade_of_empty rfl rfl }
  have returns : ((deliverLocalBridge secondTransport).run ⟨halfDelivered, none⟩).1.isOk = true := by
    decide +kernel
  cases h : (deliverLocalBridge secondTransport).run ⟨halfDelivered, none⟩ with
  | mk outcome final =>
    rw [h] at returns
    cases outcome with
    | error message => cases returns
    | ok result =>
      exact ⟨result, final, rfl, @delivered_once pendingDelivery ⟨oneDelivery, oneRun "t"⟩
        [(firstTransport, some 20)] (secondTransport, none) result final undelivered h⟩

end Fala.Bridge
