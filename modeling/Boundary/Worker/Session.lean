import Boundary.ListToken.Token
import Boundary.Go.Maps

/-!
# Closing connections on a worker

`closeConnections` asks the controller to close the given connections, groups
its answers by session, and applies each answer's status to the connection in
the worker's local state, setting the close time of a closed one. When the
controller cannot be reached it closes every given connection locally.

The connections of an answer are looked up in the map of connections the worker
asked about; an answer for any other connection dereferences a nil pointer.
-/

namespace Boundary.WorkerSession

open GoMap GoControl ListToken

/-- `pbs.CONNECTIONSTATUS`, an open proto enum. -/
structure ConnectionStatus where
  value : Int
  deriving DecidableEq, Repr

/-- `CONNECTIONSTATUS_CLOSED`. -/
def ConnectionStatus.closed : ConnectionStatus := ⟨3⟩

/-- `pbs.SESSIONSTATUS`. -/
structure SessionStatus where
  value : Int
  deriving DecidableEq, Repr

/-- `ConnInfo`, without the cancel function and the byte counters, which
`closeConnections` does not read. -/
structure ConnInfo where
  id : String
  status : ConnectionStatus
  closeTime : Time
  deriving DecidableEq, Repr

/-- `sess`, with the fields `closeConnections` reads and writes. -/
structure Sess where
  sessionId : String
  status : SessionStatus
  connInfoMap : AList fun _ : String => ConnInfo

/-- The manager's sessions by id, `sessionMap`. -/
abbrev Manager := AList fun _ : String => Sess

/-- `ConnectionCloseData`. -/
structure ConnectionCloseData where
  sessionId : String
  bytesUp : Int
  bytesDown : Int

/-- `pbs.CloseConnectionRequestData`. -/
structure CloseConnectionRequestData where
  connectionId : String
  reason : String
  bytesUp : Int
  bytesDown : Int

/-- `pbs.CloseConnectionResponseData`. -/
structure CloseConnectionResponseData where
  connectionId : String
  status : ConnectionStatus

/-- The connections to close, by connection id. -/
abbrev CloseInfo := AList fun _ : String => ConnectionCloseData

/-- The answers of the controller by session id. -/
abbrev SessionCloseInfo := AList fun _ : String => List CloseConnectionResponseData

/-- The panic of a nil pointer dereference. -/
def nilDereference : Error := .runtimeError "invalid memory address or nil pointer dereference"

/-- `sess.ApplyLocalConnectionStatus`, the time of the call being `now`. -/
def Sess.applyLocalConnectionStatus (now : Time) (s : Sess) (connId : String)
    (status : ConnectionStatus) : Except String Sess :=
  match s.connInfoMap.lookup connId with
  | none =>
    .error ("could not find connection ID \"" ++ connId ++ "\" for session ID \"" ++ s.sessionId ++
      "\" in local state")
  | some connInfo =>
    let closeTime := if status = .closed then now else connInfo.closeTime
    .ok { s with connInfoMap := s.connInfoMap.insert connId { connInfo with status, closeTime } }

/-- `makeCloseConnectionRequest`. -/
def makeCloseConnectionRequest (closeInfo : CloseInfo) : List CloseConnectionRequestData :=
  closeInfo.entries.map fun e => ⟨e.1, "unknown", e.2.bytesUp, e.2.bytesDown⟩

/-- `makeSessionCloseInfo`: each answer under the session the worker asked about
its connection for. The check for a nil `closeInfo` is left out: the map
`closeConnections` passes is never empty. -/
def makeSessionCloseInfo (closeInfo : CloseInfo) (response : List CloseConnectionResponseData) :
    Except Error SessionCloseInfo :=
  response.foldlM (fun result v =>
    match closeInfo.lookup v.connectionId with
    | none => .error nilDereference
    | some data => .ok (appendAt result data.sessionId v)) ∅

/-- `makeFakeSessionCloseInfo`: every connection closed, under its session. -/
def makeFakeSessionCloseInfo (closeInfo : CloseInfo) : SessionCloseInfo :=
  closeInfo.entries.foldl (fun result e => appendAt result e.2.sessionId ⟨e.1, .closed⟩) ∅

/-- The inner loop of `setCloseTimeForResponse` over one session's answers: the
session after them, the connections closed, and the errors. -/
def applyResponses (now : Time) (si : Sess) (responses : List CloseConnectionResponseData)
    (closedIds errs : List String) : Sess × List String × List String :=
  responses.foldl (fun (si, closedIds, errs) response =>
    match si.applyLocalConnectionStatus now response.connectionId response.status with
    | .error err => (si, closedIds, errs ++ [err])
    | .ok si =>
      (si, if response.status = .closed then closedIds ++ [response.connectionId] else closedIds,
        errs)) (si, closedIds, errs)

/-- One session of the loop of `setCloseTimeForResponse`. -/
def closeSession (now : Time) (acc : Manager × List String × List String)
    (e : (_ : String) × List CloseConnectionResponseData) : Manager × List String × List String :=
  match acc.1.lookup e.1 with
  | none =>
    (acc.1, acc.2.1,
      acc.2.2 ++ ["could not find session ID \"" ++ e.1 ++ "\" in local state after closing connections"])
  | some si =>
    let (si, closedIds, errs) := applyResponses now si e.2 acc.2.1 acc.2.2
    (acc.1.insert e.1 si, closedIds, errs)

/-- `setCloseTimeForResponse`: the manager after it, the connections closed and
the errors. -/
def setCloseTimeForResponse (now : Time) (sManager : Manager) (sessionCloseInfo : SessionCloseInfo) :
    Manager × List String × List String :=
  sessionCloseInfo.entries.foldl (closeSession now) (sManager, [], [])

/-- `closeConnections`, the controller answering the request with `controller`:
whether it reports success, and the manager after it. -/
def closeConnections (now : Time)
    (controller : List CloseConnectionRequestData → Except String (List CloseConnectionResponseData))
    (sManager : Manager) (closeInfo : CloseInfo) : Except Error (Bool × Manager) :=
  if closeInfo.entries = [] then .ok (false, sManager)
  else do
    let sessionCloseInfo ← match controller (makeCloseConnectionRequest closeInfo) with
      | .error _ => .ok (makeFakeSessionCloseInfo closeInfo)
      | .ok response => makeSessionCloseInfo closeInfo response
    let (sManager, _, errs) := setCloseTimeForResponse now sManager sessionCloseInfo
    pure (errs.isEmpty, sManager)

/-! ## What one answer does -/

/-- The local state of connection `c` of session `s`. -/
def conn (m : Manager) (s c : String) : Option ConnInfo :=
  (m.lookup s).bind fun si => si.connInfoMap.lookup c

/-- A status applied to a connection, when it exists. -/
def applyStatus (now : Time) (info : Option ConnInfo) (status : ConnectionStatus) :
    Option ConnInfo :=
  info.map fun i => { i with status, closeTime := if status = .closed then now else i.closeTime }

/-- A session after one answer, whether its connection exists or not. -/
def Sess.apply (now : Time) (si : Sess) (r : CloseConnectionResponseData) : Sess :=
  match si.applyLocalConnectionStatus now r.connectionId r.status with
  | .ok si' => si'
  | .error _ => si

@[simp] theorem applyStatus_none (now : Time) (status : ConnectionStatus) :
    applyStatus now none status = none := rfl

theorem foldl_applyStatus_none (now : Time) (rs : List CloseConnectionResponseData) :
    rs.foldl (fun i r => applyStatus now i r.status) none = none := by
  induction rs with
  | nil => rfl
  | cons r rs ih => exact ih

/-- One answer changes its own connection only, and neither the session's id nor
its status. -/
theorem Sess.apply_spec (now : Time) (si : Sess) (r : CloseConnectionResponseData) (c : String) :
    (si.apply now r).connInfoMap.lookup c =
        (if c = r.connectionId then applyStatus now (si.connInfoMap.lookup c) r.status
          else si.connInfoMap.lookup c) ∧
      (si.apply now r).status = si.status := by
  refine ⟨?_, ?_⟩
  · cases hc : si.connInfoMap.lookup r.connectionId with
    | none =>
      simp only [Sess.apply, Sess.applyLocalConnectionStatus, hc]
      by_cases h : c = r.connectionId
      · rw [if_pos h, h, hc, applyStatus_none]
      · rw [if_neg h]
    | some info =>
      simp only [Sess.apply, Sess.applyLocalConnectionStatus, hc]
      by_cases h : c = r.connectionId
      · subst h
        simp [AList.lookup_insert, hc, applyStatus]
      · rw [if_neg h, AList.lookup_insert_ne h]
  · unfold Sess.apply Sess.applyLocalConnectionStatus
    split <;> rename_i h <;> split at h <;> cases h <;> rfl

theorem applyResponses_fst (now : Time) (si : Sess) (rs : List CloseConnectionResponseData)
    (closedIds errs : List String) :
    (applyResponses now si rs closedIds errs).1 = rs.foldl (Sess.apply now) si := by
  induction rs generalizing si closedIds errs with
  | nil => rfl
  | cons r rs ih =>
    simp only [applyResponses, List.foldl_cons] at ih ⊢
    unfold Sess.apply
    split
    · rename_i h
      rw [h]
      exact ih _ _ _
    · rename_i h
      rw [h]
      exact ih _ _ _

/-- A session's answers applied in order: each connection takes its own
answers in order, and the session keeps its status. -/
theorem foldl_apply_spec (now : Time) (rs : List CloseConnectionResponseData) (si : Sess) (c : String) :
    (rs.foldl (Sess.apply now) si).connInfoMap.lookup c =
        (rs.filter (·.connectionId = c)).foldl (fun i r => applyStatus now i r.status)
          (si.connInfoMap.lookup c) ∧
      (rs.foldl (Sess.apply now) si).status = si.status := by
  induction rs generalizing si with
  | nil => exact ⟨rfl, rfl⟩
  | cons r rs ih =>
    obtain ⟨hlookup, hstatus⟩ := Sess.apply_spec now si r c
    rw [List.foldl_cons, (ih _).1, (ih _).2, hlookup, hstatus, List.filter_cons]
    by_cases h : r.connectionId = c
    · simp [h]
    · simp [h, Ne.symm h]

/-! ## What the answers grouped by session do -/

/-- One session of the loop of `setCloseTimeForResponse`, for the manager: a
session found takes its answers in order. -/
def applySession (now : Time) (m : Manager) (e : (_ : String) × List CloseConnectionResponseData) :
    Manager :=
  match m.lookup e.1 with
  | none => m
  | some si => m.insert e.1 (e.2.foldl (Sess.apply now) si)

/-- The loop of `setCloseTimeForResponse` over the sessions, for the manager. -/
def applySessions (now : Time) (m : Manager) (l : List ((_ : String) × List CloseConnectionResponseData)) :
    Manager :=
  l.foldl (applySession now) m

theorem closeSession_fst (now : Time) (acc : Manager × List String × List String)
    (e : (_ : String) × List CloseConnectionResponseData) :
    (closeSession now acc e).1 = applySession now acc.1 e := by
  unfold closeSession applySession
  cases acc.1.lookup e.1 with
  | none => rfl
  | some si =>
    dsimp only
    have h := applyResponses_fst now si e.2 acc.2.1 acc.2.2
    rcases hr : applyResponses now si e.2 acc.2.1 acc.2.2 with ⟨si', closedIds, errs⟩
    rw [hr] at h
    dsimp only at h ⊢
    rw [h]

theorem setCloseTimeForResponse_fst (now : Time) (m : Manager) (sessionCloseInfo : SessionCloseInfo) :
    (setCloseTimeForResponse now m sessionCloseInfo).1 = applySessions now m sessionCloseInfo.entries := by
  unfold setCloseTimeForResponse applySessions
  -- the ids closed and the errors do not change what happens to the manager
  suffices h : ∀ (l : List ((_ : String) × List CloseConnectionResponseData))
      (acc : Manager × List String × List String),
      (l.foldl (closeSession now) acc).1 = l.foldl (applySession now) acc.1 from h _ _
  intro l
  induction l with
  | nil => intro _; rfl
  | cons e l ih =>
    intro acc
    rw [List.foldl_cons, List.foldl_cons, ih, closeSession_fst]

/-- After the sessions' answers, a connection has taken the answers for it under
its session, in order; the sessions keep their statuses. -/
theorem applySessions_spec (now : Time) :
    ∀ (l : List ((_ : String) × List CloseConnectionResponseData)) (m : Manager), (l.map Sigma.fst).Nodup →
      ∀ s c, conn (applySessions now m l) s c =
          (((l.dlookup s).getD []).filter (·.connectionId = c)).foldl
            (fun i r => applyStatus now i r.status) (conn m s c) ∧
        ((applySessions now m l).lookup s).map Sess.status = (m.lookup s).map Sess.status
  | [], m, _, s, c => ⟨rfl, rfl⟩
  | ⟨k, rs⟩ :: l, m, hnodup, s, c => by
    rw [List.map_cons, List.nodup_cons] at hnodup
    have hrest := applySessions_spec now l
    simp only [applySessions, List.foldl_cons, applySession] at hrest ⊢
    have hnone : l.dlookup k = none := List.dlookup_eq_none.mpr hnodup.1
    cases hm : m.lookup k with
    | none =>
      obtain ⟨hconn, hstatus⟩ := hrest m hnodup.2 s c
      refine ⟨?_, hstatus⟩
      simp only at hconn ⊢
      rw [hconn]
      by_cases hs : s = k
      · -- a session that is not found: none of its connections is either
        subst hs
        simp [conn, hm, foldl_applyStatus_none]
      · simp [List.dlookup_cons_ne l (⟨k, rs⟩ : (_ : String) × List CloseConnectionResponseData) hs]
    | some si =>
      obtain ⟨hconn, hstatus⟩ := hrest (m.insert k (rs.foldl (Sess.apply now) si)) hnodup.2 s c
      simp only at hconn hstatus ⊢
      by_cases hs : s = k
      · subst hs
        obtain ⟨hc, hst⟩ := foldl_apply_spec now rs si c
        refine ⟨?_, ?_⟩
        · rw [hconn, hnone]
          simp [conn, AList.lookup_insert, hc, hm]
        · rw [hstatus]
          simp [AList.lookup_insert, hm, hst]
      · refine ⟨?_, ?_⟩
        · rw [hconn, List.dlookup_cons_ne l (⟨k, rs⟩ : (_ : String) × List CloseConnectionResponseData) hs]
          simp [conn, AList.lookup_insert_ne hs]
        · rw [hstatus, AList.lookup_insert_ne hs]

/-! ## The answers grouped by session -/

/-- The session the worker asked about a connection for. -/
def sessionOf (closeInfo : CloseInfo) (v : CloseConnectionResponseData) : String :=
  ((closeInfo.lookup v.connectionId).map (·.sessionId)).getD ""

/-- With an answer only for connections the worker asked about, each answer is
grouped under the session it asked about the connection for. -/
theorem makeSessionCloseInfo_eq_ok {closeInfo : CloseInfo} {response : List CloseConnectionResponseData}
    (hknown : ∀ v ∈ response, closeInfo.lookup v.connectionId ≠ none) :
    makeSessionCloseInfo closeInfo response =
      .ok (response.foldl (fun r v => appendAt r (sessionOf closeInfo v) v) ∅) := by
  unfold makeSessionCloseInfo
  refine foldlM_eq_ok _ _ response ∅ fun r v hv => ?_
  cases h : closeInfo.lookup v.connectionId with
  | none => exact absurd h (hknown v hv)
  | some data => simp [sessionOf, h]

theorem getD_lookup_sessionCloseInfo (closeInfo : CloseInfo) (response : List CloseConnectionResponseData)
    (s : String) :
    ((response.foldl (fun r v => appendAt r (sessionOf closeInfo v) v) ∅).lookup s).getD [] =
      response.filter fun v => sessionOf closeInfo v = s := by
  exact (getD_lookup_foldl_appendAt_key (sessionOf closeInfo) id response ∅ s).trans (by simp)

theorem getD_lookup_makeFakeSessionCloseInfo (closeInfo : CloseInfo) (s : String) :
    ((makeFakeSessionCloseInfo closeInfo).lookup s).getD [] =
      (closeInfo.entries.filter fun e => e.2.sessionId = s).map fun e => ⟨e.1, .closed⟩ := by
  exact (getD_lookup_foldl_appendAt_key (fun e : (_ : String) × ConnectionCloseData => e.2.sessionId)
    (fun e => (⟨e.1, .closed⟩ : CloseConnectionResponseData)) closeInfo.entries ∅ s).trans (by simp)

/-- Closing a connection twice closes it once. -/
theorem foldl_applyStatus_closed (now : Time) :
    ∀ (rs : List CloseConnectionResponseData) (info : Option ConnInfo),
      (∀ r ∈ rs, r.status = .closed) →
      rs.foldl (fun i r => applyStatus now i r.status) info =
        if rs = [] then info else applyStatus now info .closed
  | [], _, _ => rfl
  | r :: rs, info, hclosed => by
    rw [List.foldl_cons, hclosed r List.mem_cons_self,
      foldl_applyStatus_closed now rs _ fun r hr => hclosed r (List.mem_cons_of_mem _ hr)]
    split
    · rfl
    · cases info <;> simp [applyStatus]

/-! ## What `closeConnections` does -/

/-- When the controller answers only for connections the worker asked about,
each connection takes the answers for it under the session the worker asked
about it for, in order, and the sessions keep their statuses. -/
theorem closeConnections_answered (now : Time)
    {controller : List CloseConnectionRequestData → Except String (List CloseConnectionResponseData)}
    (m : Manager) {closeInfo : CloseInfo} (hne : closeInfo.entries ≠ [])
    {response : List CloseConnectionResponseData}
    (hresponse : controller (makeCloseConnectionRequest closeInfo) = .ok response)
    (hknown : ∀ v ∈ response, closeInfo.lookup v.connectionId ≠ none) :
    ∃ ok m', closeConnections now controller m closeInfo = .ok (ok, m') ∧
      ∀ s c, conn m' s c =
          ((response.filter fun v => sessionOf closeInfo v = s).filter (·.connectionId = c)).foldl
            (fun i r => applyStatus now i r.status) (conn m s c) ∧
        (m'.lookup s).map Sess.status = (m.lookup s).map Sess.status := by
  have hspec := applySessions_spec now
    (response.foldl (fun r v => appendAt r (sessionOf closeInfo v) v) ∅).entries m
    (response.foldl (fun r v => appendAt r (sessionOf closeInfo v) v) ∅).nodupKeys
  rw [← setCloseTimeForResponse_fst] at hspec
  unfold closeConnections
  rw [if_neg hne, hresponse]
  dsimp only
  rw [makeSessionCloseInfo_eq_ok hknown, ok_bind]
  rcases hset : setCloseTimeForResponse now m
    (response.foldl (fun r v => appendAt r (sessionOf closeInfo v) v) ∅) with ⟨m', closedIds, errs⟩
  rw [hset] at hspec
  refine ⟨errs.isEmpty, m', rfl, fun s c => ?_⟩
  obtain ⟨hconn, hstatus⟩ := hspec s c
  have hlist := getD_lookup_sessionCloseInfo closeInfo response s
  rw [AList.lookup] at hlist
  exact ⟨by rw [hconn, hlist], hstatus⟩

/-- When the controller cannot be reached, every connection asked about is
closed in the session it was asked about for, when the worker has it, and
nothing else changes. -/
theorem closeConnections_unreachable (now : Time)
    {controller : List CloseConnectionRequestData → Except String (List CloseConnectionResponseData)}
    (m : Manager) {closeInfo : CloseInfo} (hne : closeInfo.entries ≠ []) {err : String}
    (herr : controller (makeCloseConnectionRequest closeInfo) = .error err) :
    ∃ ok m', closeConnections now controller m closeInfo = .ok (ok, m') ∧
      ∀ s c, conn m' s c =
          (if ∃ d, closeInfo.lookup c = some d ∧ d.sessionId = s then
            applyStatus now (conn m s c) .closed else conn m s c) ∧
        (m'.lookup s).map Sess.status = (m.lookup s).map Sess.status := by
  have hspec := applySessions_spec now (makeFakeSessionCloseInfo closeInfo).entries m
    (makeFakeSessionCloseInfo closeInfo).nodupKeys
  rw [← setCloseTimeForResponse_fst] at hspec
  unfold closeConnections
  rw [if_neg hne, herr]
  dsimp only
  rw [ok_bind]
  rcases hset : setCloseTimeForResponse now m (makeFakeSessionCloseInfo closeInfo) with
    ⟨m', closedIds, errs⟩
  rw [hset] at hspec
  refine ⟨errs.isEmpty, m', rfl, fun s c => ?_⟩
  obtain ⟨hconn, hstatus⟩ := hspec s c
  refine ⟨?_, hstatus⟩
  have hlist := getD_lookup_makeFakeSessionCloseInfo closeInfo s
  rw [AList.lookup] at hlist
  rw [hconn, hlist, foldl_applyStatus_closed now _ _ (fun r hr => by
    obtain ⟨_, -, rfl⟩ := List.mem_map.mp (List.mem_of_mem_filter hr)
    rfl)]
  -- the connection is asked about under this session exactly when an answer is made for it
  have hiff : (((closeInfo.entries.filter fun e => e.2.sessionId = s).map
      fun e => (⟨e.1, .closed⟩ : CloseConnectionResponseData)).filter (·.connectionId = c)) ≠ [] ↔
      ∃ d, closeInfo.lookup c = some d ∧ d.sessionId = s := by
    simp only [ne_eq, List.filter_eq_nil_iff, not_forall, not_not, List.mem_map, List.mem_filter,
      decide_eq_true_eq]
    constructor
    · rintro ⟨_, ⟨⟨k, d⟩, ⟨hmem, hs⟩, rfl⟩, rfl⟩
      exact ⟨d, AList.mem_lookup_iff.mpr hmem, hs⟩
    · rintro ⟨d, hd, hs⟩
      exact ⟨_, ⟨⟨c, d⟩, ⟨AList.mem_lookup_iff.mp hd, hs⟩, rfl⟩, rfl⟩
  by_cases h : ∃ d, closeInfo.lookup c = some d ∧ d.sessionId = s
  · rw [if_neg (hiff.mpr h), if_pos h]
  · rw [if_pos (not_not.mp (mt hiff.mp h)), if_neg h]

/-! ## A panic on an answer for another connection -/

/-- An answer for a connection the worker did not ask about dereferences a nil
pointer, whatever the other answers. -/
theorem makeSessionCloseInfo_foreign {closeInfo : CloseInfo} {response : List CloseConnectionResponseData}
    {v : CloseConnectionResponseData} (hv : v ∈ response) (hforeign : closeInfo.lookup v.connectionId = none) :
    makeSessionCloseInfo closeInfo response = .error nilDereference := by
  refine foldlM_eq_error _ nilDereference (fun _ x => ?_) response ∅ ⟨v, hv, fun _ => ?_⟩
  · cases h : closeInfo.lookup x.connectionId
    · exact .inr rfl
    · exact .inl ⟨_, rfl⟩
  · simp only [hforeign]

/-- When the controller answers for a connection the worker did not ask about,
`closeConnections` panics. -/
theorem closeConnections_foreign_panics (now : Time)
    {controller : List CloseConnectionRequestData → Except String (List CloseConnectionResponseData)}
    (sManager : Manager) {closeInfo : CloseInfo} (hne : closeInfo.entries ≠ [])
    {response : List CloseConnectionResponseData}
    (hresponse : controller (makeCloseConnectionRequest closeInfo) = .ok response)
    {v : CloseConnectionResponseData} (hv : v ∈ response)
    (hforeign : closeInfo.lookup v.connectionId = none) :
    closeConnections now controller sManager closeInfo = .error nilDereference := by
  unfold closeConnections
  rw [if_neg hne, hresponse]
  dsimp only
  rw [makeSessionCloseInfo_foreign hv hforeign, error_bind]

/-- A worker with one session and one connection, which asks to close it. -/
def oneConnection : Manager :=
  (∅ : Manager).insert "s_1234567890"
    ⟨"s_1234567890", ⟨2⟩, (∅ : AList fun _ : String => ConnInfo).insert "sc_1234567890"
      ⟨"sc_1234567890", ⟨2⟩, 0⟩⟩

theorem closeConnections_other_connection_panics :
    closeConnections 5 (fun _ => .ok [⟨"sc_0987654321", .closed⟩]) oneConnection
      ((∅ : CloseInfo).insert "sc_1234567890" ⟨"s_1234567890", 10, 20⟩) = .error nilDereference :=
  closeConnections_foreign_panics 5 oneConnection (by decide) rfl List.mem_cons_self (by decide)

end Boundary.WorkerSession
