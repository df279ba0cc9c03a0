import CodeIndex.Proofs.Action
import CodeIndex.Service.Call

/-!
# Every call that begins ends in an envelope

A call begins with a log event that has its parameters as members, so that no parameter may have one of the
event's own names.  Once it has begun, whatever its handler does is told in an envelope, with one exception:
the details of a failure become members of an error, which has names of its own too.  The identity of the
call is forgotten at the end of what has begun, and of that only.
-/

namespace CodeIndex.Service

open CodeIndex.Tool

variable {α β : Type}

/-- What a step comes to on a service, and the service after it. -/
def Action.on (act : Action α) (s : Service) : Except Trouble α × Service :=
  act.run.run s

theorem on_bind (act : Action α) (f : α → Action β) (s : Service) :
    (act >>= f).on s =
      match act.on s with
      | (.ok a, s) => (f a).on s
      | (.error t, s) => (.error t, s) := by
  unfold Action.on
  rw [run_bind]
  rcases act.run.run s with ⟨_ | _, _⟩ <;> rfl

@[simp] theorem on_pure (a : α) (s : Service) : (pure a : Action α).on s = (.ok a, s) := rfl

@[simp] theorem on_throw (t : Trouble) (s : Service) :
    (throw t : Action α).on s = (.error t, s) := rfl

@[simp] theorem on_attempt (act : Action α) (s : Service) :
    (attempt act).on s = (.ok (act.on s).1, (act.on s).2) := rfl

@[simp] theorem on_monadLift (act : StateM Service α) (s : Service) :
    (liftM act : Action α).on s = (.ok (act.run s).1, (act.run s).2) := rfl

def noting (s : Service) (level : Log.Level) (name : String) (members : Value.Members) : Service :=
  s.withWorkspace { s.workspace with logged := { level, name, members } :: s.workspace.logged }

@[simp] theorem on_log (level : Log.Level) (name : String) (members : Value.Members) (s : Service) :
    (log level name members).on s = (.ok ⟨⟩, s.noting level name members) := rfl

@[simp] theorem on_setRequestId (id : String) (s : Service) :
    (setRequestId id).on s = (.ok ⟨⟩, { s with requestId := some id }) := rfl

@[simp] theorem on_clearRequestId (s : Service) :
    clearRequestId.on s = (.ok ⟨⟩, { s with requestId := none }) := rfl

/-! ## How a call begins -/

/-- No parameter that is logged has a name of the event's own. -/
def HasFreeNames (s : Service) (parameters : Value.Members) : Prop :=
  ∀ p ∈ loggedParameters parameters, p.1 ∉ reservedNames (s.writes .info)

instance (s : Service) (parameters : Value.Members) : Decidable (HasFreeNames s parameters) :=
  inferInstanceAs (Decidable (∀ _ ∈ _, _))

def begun (t : Tool) (parameters : Value.Members) (id : String) (s : Service) : Service :=
  { s with requestId := some id }.noting .info "tool_start"
    (("tool", .text t.label) :: loggedParameters parameters)

variable {t : Tool} {parameters : Value.Members} {s : Service}

theorem any_reserved_eq_false :
    ((loggedParameters parameters).any fun (k, _) => (reservedNames (s.writes .info)).contains k) = false ↔
      HasFreeNames s parameters := by
  simp [HasFreeNames, List.any_eq_false]

@[simp] theorem on_get (s : Service) : (get : Action Service).on s = (.ok s, s) := rfl

theorem on_begin (h : HasFreeNames s parameters) :
    (begin t parameters).on s =
      (.ok ⟨⟩, s.noting .info "tool_start" (("tool", .text t.label) :: loggedParameters parameters)) := by
  unfold begin
  simp only [on_bind, on_get, any_reserved_eq_false.mpr h]
  rfl

theorem on_begin_reserved (h : ¬ HasFreeNames s parameters) :
    (begin t parameters).on s =
      (.error (.mishap (.wrongType "a parameter has a reserved name")), s) := by
  rw [← any_reserved_eq_false, Bool.not_eq_false] at h
  unfold begin
  simp only [on_bind, on_get, h]
  rfl

/-! ## How it ends -/

/-- The envelope that tells how the work of a tool ended; there is none for a failure whose details have
reserved names. -/
def envelopeOf? (t : Tool) : Ending → Option Envelope
  | .returned result => some (.success result)
  | .failed f => if Error.hasReserved f then none else some (.failure (.ofFailure f))
  | .refused e => some (.failure e)
  | .broken kind message => some (.failure (.ofFailure
      (.internal message [("tool", .text t.label), ("error_type", .text kind)])))

def envelope? (t : Tool) (handler : Request → StateM Service Ending) (parameters : Value.Members)
    (s : Service) : Option Envelope :=
  match t.check parameters with
  | .faults faults => some (.invalid faults)
  | .ok request => envelopeOf? t ((handler request).run s).1

def orReserved (e : Option Envelope) : Except Trouble Envelope :=
  match e with
  | some e => .ok e
  | none => .error (.mishap (.wrongType "a detail has a reserved name"))

theorem on_conclude (t : Tool) (ending : Ending) (s : Service) :
    ((conclude t ending).on s).1 = orReserved (envelopeOf? t ending) := by
  cases ending with
  | returned result => rfl
  | refused e => rfl
  | broken kind message => rfl
  | failed f =>
    show ((failed t f).on s).1 = orReserved (if Error.hasReserved f then none else some _)
    unfold failed
    cases Error.hasReserved f <;> rfl

theorem on_attend (t : Tool) (handler : Request → StateM Service Ending) (parameters : Value.Members)
    (s : Service) :
    ((attend t handler parameters).on s).1 = orReserved (envelope? t handler parameters s) := by
  unfold attend envelope?
  cases t.check parameters with
  | faults faults => rfl
  | ok request =>
    simp only [on_bind, on_monadLift]
    exact on_conclude t _ _

variable {handler : Request → StateM Service Ending} {id : String}

theorem on_invoke (h : HasFreeNames s parameters) :
    ((invoke t handler parameters id).on s).1 =
        orReserved (envelope? t handler parameters (begun t parameters id s)) ∧
      ((invoke t handler parameters id).on s).2.requestId = none := by
  have hon : (invoke t handler parameters id).on s =
      (((attend t handler parameters).on (begun t parameters id s)).1,
        { ((attend t handler parameters).on (begun t parameters id s)).2 with requestId := none }) := by
    have hbegin : (begin t parameters).on { s with requestId := some id } =
        (.ok ⟨⟩, begun t parameters id s) := on_begin h
    unfold invoke
    simp only [on_bind, on_setRequestId, hbegin, on_attempt, on_clearRequestId]
    -- the identity is forgotten before it is known what the attempt came to
    rcases (attend t handler parameters).on (begun t parameters id s) with ⟨_ | _, _⟩ <;> rfl
  rw [hon]
  exact ⟨on_attend t handler parameters _, rfl⟩

theorem on_invoke_reserved (h : ¬ HasFreeNames s parameters) :
    (invoke t handler parameters id).on s =
      (.error (.mishap (.wrongType "a parameter has a reserved name")),
        { s with requestId := some id }) := by
  have hbegin : (begin t parameters).on { s with requestId := some id } =
      (.error (.mishap (.wrongType "a parameter has a reserved name")),
        { s with requestId := some id }) := on_begin_reserved h
  unfold invoke
  simp only [on_bind, on_setRequestId, hbegin]

/-! ## What an envelope says -/

def Returns (t : Tool) (handler : Request → StateM Service Ending) (parameters : Value.Members)
    (s : Service) (result : Value.Members) : Prop :=
  ∃ request, t.check parameters = .ok request ∧ ((handler request).run s).1 = .returned result

/-- The parameters are right and the handler ends in a failure that has a detail with a reserved name. -/
def FailsReserved (t : Tool) (handler : Request → StateM Service Ending) (parameters : Value.Members)
    (s : Service) : Prop :=
  ∃ request f, t.check parameters = .ok request ∧ ((handler request).run s).1 = .failed f ∧
    Error.hasReserved f = true

/-- The value of an envelope with a result. -/
structure TellsResult (v : Value) (result : Value.Members) : Prop where
  success : v.get? "success" = some (.bool true)
  error : v.get? "error" = some .null
  result : v.get? "result" = some (.map result)

/-- The value of an envelope without a result: a sentence instead, and more in a member of its `meta`. -/
structure TellsTrouble (v : Value) (sentence key : String) (cause : Value) : Prop where
  success : v.get? "success" = some (.bool false)
  error : v.get? "error" = some (.text sentence)
  result : v.get? "result" = some .null
  cause : ∃ told, v.get? "meta" = some told ∧ told.get? key = some cause

/-- The error that tells how work ended, unless it ended well. -/
def errorOf? (t : Tool) : Ending → Option Error
  | .returned _ => none
  | .failed f => some (.ofFailure f)
  | .refused e => some e
  | .broken kind message => some (.ofFailure
      (.internal message [("tool", .text t.label), ("error_type", .text kind)]))

/-- The value of an envelope tells what is wrong with the parameters or else the error in which the handler
ended. -/
def TellsCause (t : Tool) (handler : Request → StateM Service Ending) (parameters : Value.Members)
    (s : Service) (v : Value) : Prop :=
  (∃ faults, t.check parameters = .faults faults ∧
      TellsTrouble v ("Validation error: " ++ Envelope.firstFault faults) "validation_errors"
        (.list ((faults.take Envelope.faultLimit).map Envelope.faultValue))) ∨
    ∃ request error, t.check parameters = .ok request ∧
      errorOf? t ((handler request).run s).1 = some error ∧
      TellsTrouble v error.message "error" error.toValue

theorem tellsResult_success (result : Value.Members) :
    TellsResult (Envelope.success result).toValue result :=
  ⟨rfl, rfl, rfl⟩

theorem tellsTrouble_invalid (faults : List Fault) :
    TellsTrouble (Envelope.invalid faults).toValue ("Validation error: " ++ Envelope.firstFault faults)
      "validation_errors" (.list ((faults.take Envelope.faultLimit).map Envelope.faultValue)) :=
  ⟨rfl, rfl, rfl, _, rfl, rfl⟩

theorem tellsTrouble_failure (e : Error) :
    TellsTrouble (Envelope.failure e).toValue e.message "error" e.toValue :=
  ⟨rfl, rfl, rfl, _, rfl, rfl⟩

theorem envelope?_eq_none : envelope? t handler parameters s = none ↔
    FailsReserved t handler parameters s := by
  unfold envelope? FailsReserved
  cases t.check parameters with
  | faults faults => simp
  | ok request =>
    simp only [Checked.ok.injEq, exists_and_left, exists_eq_left']
    cases ((handler request).run s).1 <;> simp [envelopeOf?]

theorem cases_of_envelopeOf? {ending : Ending} {e : Envelope} (h : envelopeOf? t ending = some e) :
    (∃ result, ending = .returned result ∧ e = .success result) ∨
      ∃ error, errorOf? t ending = some error ∧ e = .failure error := by
  cases ending with
  | returned result =>
    cases h
    exact .inl ⟨result, rfl, rfl⟩
  | failed f =>
    simp only [envelopeOf?] at h
    split at h
    · cases h
    · cases h
      exact .inr ⟨_, rfl, rfl⟩
  | refused error =>
    cases h
    exact .inr ⟨error, rfl, rfl⟩
  | broken kind message =>
    cases h
    exact .inr ⟨_, rfl, rfl⟩

theorem told_of_envelope? {e : Envelope} (h : envelope? t handler parameters s = some e) :
    (∃ result, Returns t handler parameters s result ∧ TellsResult e.toValue result) ∨
      (∀ result, ¬ Returns t handler parameters s result) ∧
        TellsCause t handler parameters s e.toValue := by
  unfold envelope? at h
  unfold Returns TellsCause
  -- the check itself is not looked into
  generalize t.check parameters = checked at h ⊢
  cases checked with
  | faults faults =>
    cases h
    exact .inr ⟨nofun, .inl ⟨faults, rfl, tellsTrouble_invalid faults⟩⟩
  | ok request =>
    rcases cases_of_envelopeOf? h with ⟨result, hending, rfl⟩ | ⟨error, herror, rfl⟩
    · exact .inl ⟨result, ⟨request, rfl, hending⟩, tellsResult_success result⟩
    · refine .inr ⟨?_, .inr ⟨request, error, rfl, herror, tellsTrouble_failure error⟩⟩
      rintro result ⟨_, hrequest, hending⟩
      cases hrequest
      rw [hending] at herror
      cases herror

/-- Whatever a handler does, a call ends in an envelope unless a parameter, or a detail of the failure that
its handler ends in, has a reserved name.  The envelope tells a result exactly where the parameters are right
and the handler returns one, and otherwise what is wrong with the parameters or the error in which the handler
ended.  The identity of the call is forgotten unless a parameter has a reserved name. -/
theorem envelope_of_invoke (t : Tool) (handler : Request → StateM Service Ending)
    (parameters : Value.Members) (id : String) (s : Service) :
    let started := begun t parameters id s
    let ended := (invoke t handler parameters id).on s
    ((∃ e, ended.1 = .ok e) ↔ HasFreeNames s parameters ∧ ¬ FailsReserved t handler parameters started) ∧
      (ended.2.requestId = none ↔ HasFreeNames s parameters) ∧
      ∀ e, ended.1 = .ok e →
        (∃ result, Returns t handler parameters started result ∧ TellsResult e.toValue result) ∨
          (∀ result, ¬ Returns t handler parameters started result) ∧
            TellsCause t handler parameters started e.toValue := by
  intro started ended
  -- with a reserved name the call ends where it would begin, its identity set and not yet guarded
  by_cases h : HasFreeNames s parameters
  · obtain ⟨hended, hid⟩ : ended.1 = orReserved (envelope? t handler parameters started) ∧
        ended.2.requestId = none := on_invoke h
    rw [hended, ← envelope?_eq_none]
    cases he : envelope? t handler parameters started with
    | none => exact ⟨by simp [orReserved, h], by simp [hid, h], nofun⟩
    | some envelope =>
      refine ⟨by simp [orReserved, h], by simp [hid, h], ?_⟩
      intro e htold
      cases htold
      exact told_of_envelope? he
  · have hended : ended = _ := on_invoke_reserved h
    rw [hended]
    exact ⟨by simp [h], by simp [h], nofun⟩

def idle : Service :=
  .ofWorkspace { tree := .empty, root := ⟨"/", []⟩, home := { own := ⟨"/", []⟩ } }

def echo (request : Request) : StateM Service Ending :=
  pure (.returned request.toMembers)

theorem envelope_of_echoed :
    ∃ e, ((invoke .refresh echo [("paths", .texts ["a.ex"])] "a").on idle).1 = .ok e ∧
      TellsResult e.toValue [("paths", .texts ["a.ex"])] := by
  have hreturns : Returns .refresh echo [("paths", .texts ["a.ex"])]
      (begun .refresh [("paths", .texts ["a.ex"])] "a" idle) [("paths", .texts ["a.ex"])] :=
    ⟨.refresh (some ["a.ex"]), rfl, rfl⟩
  obtain ⟨hends, -, htells⟩ :=
    envelope_of_invoke .refresh echo [("paths", .texts ["a.ex"])] "a" idle
  obtain ⟨e, he⟩ := hends.mpr ⟨by decide, by rintro ⟨_, _, -, hfailed, -⟩; cases hfailed⟩
  refine ⟨e, he, ?_⟩
  obtain ⟨_, ⟨_, hchecked, hreturned⟩, htold⟩ | ⟨hnone, -⟩ := htells e he
  · cases hchecked
    cases hreturned
    exact htold
  · exact absurd hreturns (hnone _)

theorem no_envelope_of_reserved :
    (call .health [("tool", .text "x")] "a").on idle =
      (.error (.mishap (.wrongType "a parameter has a reserved name")),
        { idle with requestId := some "a" }) :=
  on_invoke_reserved (by decide)

end CodeIndex.Service
