import WebrtcWinXp.FileTransfer.Repository
import WebrtcWinXp.Support.StdMap
import WebrtcWinXp.Support.Transition

/-!
# The repository registry

`PeerConnectNormalDataIterator` of `P2PData/TransferData.cc`: a map from guids
to repository pointers.  Repositories live in a heap; a call that would follow
a null or dangling pointer has no successor.
-/

namespace WebrtcWinXp.FileTransfer

open Support

abbrev RepositoryPtr := ℕ

/-- The map of `m_dataBox` and the repositories that are alive. -/
structure Registry where
  dataMap : StdMap Str (Option RepositoryPtr)
  heap : StdMap RepositoryPtr DataRepository

namespace Registry

def new : Registry := ⟨.empty, .empty⟩

/-- The calls on a registry.  What the allocator, the file system and the
checksum answer comes with the call; a null pointer is `none`. -/
inductive Call where
  | newRepository (res : RepositoryPtr) (repository : DataRepository)
  | createDataRepository (resdes : FileResDescription)
      (data : Option RepositoryPtr) (file : Option (List UInt8))
  | fitOnDataRespository (res : Option RepositoryPtr)
  | dischargeDataRespository (res : Str)
  | deleteDataRepository (guid : Str)
  | push (resGuid : Str) (data : Option DataChannelTransfer)
  | pop (resGuid : Str)
  | getResBlockSize (resGuid : Str) (fileSize : ℤ)
  | setResBlockSize (resGuid : Str) (count : ℤ)
  | resProgressDisk (resGuid : Str)
  | getResourceMd5 (resGuid : Str) (md5 : Str)
  | getRespositoryByGUID (guid : Str)
  deriving DecidableEq

/-- What a call returns. -/
inductive Reply where
  | none
  | flag (value : Bool)
  | str (value : Str)
  | size (value : ℤ)
  | packet (value : Option DataChannelTransfer)
  | repository (value : Option RepositoryPtr)
  deriving DecidableEq

/-- `FitOnDataRespository`, which inserts under the guid of the
repository. -/
def fitOnDataRespository (res : RepositoryPtr) (s : Registry) :
    Option Registry := do
  let repository ← s.heap.find res
  some { s with dataMap := s.dataMap.insert repository.getGUID (some res) }

/-- `CreateDataRepository` of a repository that is not null. -/
def createDataRepository (resdes : FileResDescription)
    (data : RepositoryPtr) (file : Option (List UInt8)) (s : Registry) :
    Option (Registry × Str) := do
  let repository ← s.heap.find data
  let repository := repository.create resdes file
  let s ← fitOnDataRespository data
    { s with heap := s.heap.assign data repository }
  some (s, repository.getGUID)

/-- The common body of `DischargeDataRespository` and
`DeleteDataRepository`. -/
def removeEntry (guid : Str) (s : Registry) : Registry × Bool :=
  match s.dataMap.find guid with
  | none => (s, false)
  | some ptr =>
    ({ s with
      heap := ptr.elim s.heap s.heap.erase
      dataMap := s.dataMap.erase guid }, true)

/-- Look up a guid and apply a method to the repository found, with a default
result when there is no entry. -/
def withEntry (guid : Str) (missing : Reply)
    (method : DataRepository → Reply × DataRepository) (s : Registry) :
    Option (Registry × Reply) :=
  match s.dataMap.find guid with
  | none => some (s, missing)
  | some ptr => do
      let res ← ptr
      let repository ← s.heap.find res
      let (reply, repository) := method repository
      some ({ s with heap := s.heap.assign res repository }, reply)

/-- `GetResourceMd5`, which looks the guid up with `operator[]`. -/
def getResourceMd5 (guid md5 : Str) (s : Registry) :
    Option (Registry × Str) :=
  let (ptr, dataMap) := s.dataMap.subscript guid none
  let s := { s with dataMap := dataMap }
  match ptr with
  | none => some (s, [])
  | some res => do
      let repository ← s.heap.find res
      let repository := repository.startCaculateMd5 md5
      some ({ s with heap := s.heap.assign res repository },
        repository.getResourceMd5)

def call (s : Registry) : Call → Option (Registry × Reply)
  | .newRepository res repository =>
    if (s.heap.find res).isSome then none
    else
      some ({ s with heap := s.heap.assign res repository },
        .repository (some res))
  | .createDataRepository _ none _ => some (s, .str [])
  | .createDataRepository resdes (some data) file =>
    (s.createDataRepository resdes data file).map
      fun (s, guid) => (s, .str guid)
  | .fitOnDataRespository none => some (s, .none)
  | .fitOnDataRespository (some res) =>
    (s.fitOnDataRespository res).map fun s => (s, .none)
  | .dischargeDataRespository res => some ((s.removeEntry res).1, .none)
  | .deleteDataRepository guid =>
    let (s, found) := s.removeEntry guid
    some (s, .flag found)
  | .push _ none => some (s, .flag false)
  | .push resGuid (some data) =>
    s.withEntry resGuid (.flag false) fun r =>
      (.flag true, r.pushBack data)
  | .pop resGuid =>
    s.withEntry resGuid (.packet none) fun r =>
      (.packet r.popUp.1, r.popUp.2)
  | .getResBlockSize resGuid fileSize =>
    s.withEntry resGuid (.size 0) fun r =>
      (.size (r.getResBlockSize fileSize), r)
  | .setResBlockSize resGuid count =>
    s.withEntry resGuid .none fun r => (.none, r.setResBlockSize count)
  | .resProgressDisk resGuid => s.withEntry resGuid .none fun r => (.none, r)
  | .getResourceMd5 resGuid md5 =>
    (s.getResourceMd5 resGuid md5).map fun (s, md5) => (s, .str md5)
  | .getRespositoryByGUID guid =>
    some (s, .repository ((s.dataMap.find guid).getD none))

def step (s : Registry) (c : Call) : Option Registry :=
  (s.call c).map Prod.fst

/-! ## The registry invariant -/

/-- Every entry points to a repository whose guid is its key. -/
def WellKeyed (s : Registry) : Prop :=
  ∀ guid ptr, s.dataMap.find guid = some ptr →
    ∃ res repository, ptr = some res ∧ s.heap.find res = some repository ∧
      repository.getGUID = guid

def Call.isLookup : Call → Bool
  | .push _ _ | .pop _ | .getResBlockSize _ _ | .setResBlockSize _ _
  | .resProgressDisk _ | .getResourceMd5 _ _ | .getRespositoryByGUID _ =>
    true
  | _ => false

/-- What every call should do: a look-up keeps the map, and a repository
that was created under a guid is found under it. -/
def CallCorrect (s : Registry) (c : Call) (s' : Registry) (reply : Reply) :
    Prop :=
  (c.isLookup → s'.dataMap = s.dataMap) ∧
    ∀ resdes data file guid,
      c = .createDataRepository resdes (some data) file →
      reply = .str guid → guid ≠ [] →
      s'.call (.getRespositoryByGUID guid) =
        some (s', .repository (some data))

/-- The calls that keep the registry in order: a checksum is asked for a
registered guid, and a repository is created under a guid that no other
repository is registered under, without changing a key of its own. -/
def Call.Safe (s : Registry) : Call → Prop
  | .getResourceMd5 resGuid _ => (s.dataMap.find resGuid).isSome
  | .createDataRepository resdes (some data) file =>
    ∀ repository, s.heap.find data = some repository →
      if repository.Opens resdes file then
        (∀ guid, s.dataMap.find guid = some (some data) →
          guid = resdes.guid) ∧
        (resdes.guid ≠ [] → ∀ ptr,
          s.dataMap.find resdes.guid = some ptr → ptr = some data)
      else ∀ guid, s.dataMap.find guid = some (some data) → guid = []
  | _ => True

variable {s s' : Registry}

theorem wellKeyed_new : WellKeyed new := by
  intro guid ptr h
  cases h

variable {res : RepositoryPtr} {repository : DataRepository}

theorem WellKeyed.update (h : s.WellKeyed)
    {repository' : DataRepository}
    (hres : s.heap.find res = some repository)
    (hguid : repository'.getGUID = repository.getGUID) :
    WellKeyed { s with heap := s.heap.assign res repository' } := by
  intro guid ptr hptr
  obtain ⟨res', r, rfl, hr, hkey⟩ := h guid ptr hptr
  by_cases heq : res' = res
  · subst heq
    obtain rfl : r = repository := Option.some.inj (hr.symm.trans hres)
    exact ⟨res', repository', rfl, StdMap.find_assign_self,
      hguid.trans hkey⟩
  · exact ⟨res', r, rfl, (StdMap.find_assign_of_ne heq).trans hr, hkey⟩

variable {guid : Str} {missing reply : Reply}
  {method : DataRepository → Reply × DataRepository}

theorem withEntry_spec
    (hmethod : ∀ r, (method r).2.getGUID = r.getGUID)
    (h : s.withEntry guid missing method = some (s', reply))
    (hs : s.WellKeyed) : s'.WellKeyed ∧ s'.dataMap = s.dataMap := by
  unfold withEntry at h
  split at h
  · cases h
    exact ⟨hs, rfl⟩
  · simp only [Option.bind_eq_bind, Option.bind_eq_some_iff,
      Option.some.injEq, Prod.mk.injEq] at h
    obtain ⟨res, -, repository, hrepository, rfl, -⟩ := h
    exact ⟨hs.update hrepository (hmethod repository), rfl⟩

theorem withEntry_of_find
    (hptr : s.dataMap.find guid = some (some res))
    (hres : s.heap.find res = some repository) :
    s.withEntry guid missing method =
      some ({ s with heap := s.heap.assign res (method repository).2 },
        (method repository).1) := by
  simp [withEntry, hptr, hres]

theorem dataMap_withEntry
    (h : s.withEntry guid missing method = some (s', reply)) :
    s'.dataMap = s.dataMap := by
  unfold withEntry at h
  split at h
  · cases h
    rfl
  · simp only [Option.bind_eq_bind, Option.bind_eq_some_iff,
      Option.some.injEq, Prod.mk.injEq] at h
    obtain ⟨res, -, repository, -, rfl, -⟩ := h
    rfl

theorem call_pop_of_find
    (hptr : s.dataMap.find guid = some (some res))
    (hres : s.heap.find res = some repository) :
    s.call (.pop guid) =
      some ({ s with heap := s.heap.assign res repository.popUp.2 },
        .packet repository.popUp.1) := by
  rw [call, withEntry_of_find hptr hres]

theorem step_push_of_find (data : DataChannelTransfer)
    (hptr : s.dataMap.find guid = some (some res))
    (hres : s.heap.find res = some repository) :
    s.step (.push guid (some data)) =
      some { s with heap := s.heap.assign res (repository.pushBack data) } := by
  rw [step, call, withEntry_of_find hptr hres]
  rfl

theorem step_setResBlockSize {count : ℤ}
    (h : s.step (.setResBlockSize guid count) = some s') :
    s'.dataMap = s.dataMap ∧
      ∀ res repository, s.dataMap.find guid = some (some res) →
        s.heap.find res = some repository →
        s'.heap.find res = some (repository.setResBlockSize count) := by
  obtain ⟨⟨registry, reply⟩, hcall, rfl⟩ := Option.map_eq_some_iff.mp h
  simp only [call] at hcall
  refine ⟨dataMap_withEntry hcall, fun res repository hptr hres => ?_⟩
  rw [withEntry_of_find hptr hres] at hcall
  cases hcall
  exact StdMap.find_assign_self

theorem getResourceMd5_of_find (md5 : Str)
    (hptr : s.dataMap.find guid = some (some res))
    (hres : s.heap.find res = some repository) :
    s.getResourceMd5 guid md5 =
      some ({ s with
        heap := s.heap.assign res (repository.startCaculateMd5 md5) },
        (repository.startCaculateMd5 md5).getResourceMd5) := by
  rw [getResourceMd5, StdMap.subscript_of_find_eq_some hptr]
  simp [hres]

theorem find_withEntry
    (h : s.withEntry guid missing method = some (s', reply))
    (hres : ∀ guid, s.dataMap.find guid ≠ some (some res)) :
    s'.heap.find res = s.heap.find res ∧ s'.dataMap = s.dataMap := by
  unfold withEntry at h
  split at h
  · cases h
    exact ⟨rfl, rfl⟩
  · rename_i ptr hptr
    simp only [Option.bind_eq_bind, Option.bind_eq_some_iff,
      Option.some.injEq, Prod.mk.injEq] at h
    obtain ⟨res', rfl, repository, hrepository, rfl, -⟩ := h
    have hne : res ≠ res' := by
      rintro rfl
      exact hres guid hptr
    exact ⟨StdMap.find_assign_of_ne hne, rfl⟩

variable {resdes : FileResDescription} {data : RepositoryPtr}
  {file : Option (List UInt8)}

theorem createDataRepository_eq_some
    (h : s.createDataRepository resdes data file = some (s', guid)) :
    ∃ repository, s.heap.find data = some repository ∧
      guid = (repository.create resdes file).getGUID ∧
      s' = ⟨s.dataMap.insert guid (some data),
        s.heap.assign data (repository.create resdes file)⟩ := by
  simp only [createDataRepository, Option.bind_eq_bind,
    Option.bind_eq_some_iff, Option.some.injEq, Prod.mk.injEq] at h
  obtain ⟨repository, hdata, s'', hfit, rfl, rfl⟩ := h
  refine ⟨repository, hdata, rfl, ?_⟩
  simp only [fitOnDataRespository, StdMap.find_assign_self,
    Option.bind_eq_bind, Option.bind_some, Option.some.injEq] at hfit
  exact hfit.symm

theorem removeEntry_wellKeyed (hs : s.WellKeyed) (guid : Str) :
    (s.removeEntry guid).1.WellKeyed := by
  unfold removeEntry
  split
  · exact hs
  · rename_i ptr hptr
    obtain ⟨res, repository, rfl, hrepository, hkey⟩ := hs guid ptr hptr
    intro guid' ptr' hptr'
    obtain ⟨hne, hptr'⟩ := StdMap.find_erase_eq_some_iff.mp hptr'
    obtain ⟨res', repository', rfl, hrepository', hkey'⟩ :=
      hs guid' ptr' hptr'
    refine ⟨res', repository', rfl, ?_, hkey'⟩
    have hres : res' ≠ res := by
      rintro rfl
      rw [hrepository] at hrepository'
      cases hrepository'
      exact hne (hkey'.symm.trans hkey)
    exact (StdMap.find_erase_of_ne hres).trans hrepository'

theorem fitOnDataRespository_wellKeyed
    (h : s.fitOnDataRespository res = some s') (hs : s.WellKeyed) :
    s'.WellKeyed := by
  simp only [fitOnDataRespository, Option.bind_eq_bind,
    Option.bind_eq_some_iff, Option.some.injEq] at h
  obtain ⟨repository, hrepository, rfl⟩ := h
  intro guid ptr hptr
  rcases StdMap.find_insert_eq_some hptr with hold | ⟨rfl, rfl, -⟩
  · exact hs guid ptr hold
  · exact ⟨res, repository, rfl, hrepository, rfl⟩

theorem find_insert_of_unique {m : StdMap Str (Option RepositoryPtr)}
    (h : ∀ ptr, m.find guid = some ptr → ptr = some res) :
    (m.insert guid (some res)).find guid = some (some res) := by
  cases hfind : m.find guid with
  | none =>
    rw [StdMap.insert_of_find_eq_none hfind, StdMap.find_assign_self]
  | some ptr =>
    rw [StdMap.insert_of_find_eq_some hfind, hfind, h ptr hfind]

theorem WellKeyed.create (hs : s.WellKeyed)
    (hdata : s.heap.find data = some repository)
    (hsafe : Call.Safe s (.createDataRepository resdes (some data) file)) :
    WellKeyed { s with
      heap := s.heap.assign data (repository.create resdes file) } := by
  intro guid ptr hptr
  obtain ⟨res, r, rfl, hr, hkey⟩ := hs guid ptr hptr
  by_cases heq : res = data
  · subst heq
    refine ⟨res, _, rfl, StdMap.find_assign_self, ?_⟩
    have hsafe := hsafe repository hdata
    rw [DataRepository.getGUID_create]
    split at hsafe
    · rename_i hopens
      rw [if_pos hopens, hsafe.1 guid hptr]
    · rename_i hopens
      rw [if_neg hopens, hsafe guid hptr]
  · exact ⟨res, r, rfl, (StdMap.find_assign_of_ne heq).trans hr, hkey⟩

theorem createDataRepository_spec
    (h : s.createDataRepository resdes data file = some (s', guid))
    (hs : s.WellKeyed)
    (hsafe : Call.Safe s (.createDataRepository resdes (some data) file)) :
    s'.WellKeyed ∧
      (guid ≠ [] → s'.dataMap.find guid = some (some data)) := by
  simp only [createDataRepository, Option.bind_eq_bind,
    Option.bind_eq_some_iff, Option.some.injEq, Prod.mk.injEq] at h
  obtain ⟨repository, hdata, s'', hfit, rfl, rfl⟩ := h
  refine ⟨fitOnDataRespository_wellKeyed hfit (hs.create hdata hsafe), ?_⟩
  simp only [fitOnDataRespository, StdMap.find_assign_self,
    Option.bind_eq_bind, Option.bind_some, Option.some.injEq] at hfit
  subst hfit
  intro hne
  have hsafe := hsafe repository hdata
  rw [DataRepository.getGUID_create] at hne ⊢
  split at hsafe
  · rename_i hopens
    rw [if_pos hopens] at hne ⊢
    exact find_insert_of_unique (hsafe.2 hne)
  · rename_i hopens
    rw [if_neg hopens] at hne
    exact absurd rfl hne

theorem getResourceMd5_spec {md5 result : Str}
    (h : s.getResourceMd5 guid md5 = some (s', result))
    (hs : s.WellKeyed) (hfound : (s.dataMap.find guid).isSome) :
    s'.WellKeyed ∧ s'.dataMap = s.dataMap := by
  obtain ⟨ptr, hptr⟩ := Option.isSome_iff_exists.mp hfound
  rw [getResourceMd5, StdMap.subscript_of_find_eq_some hptr] at h
  cases ptr with
  | none =>
    cases h
    exact ⟨hs, rfl⟩
  | some res =>
    simp only [Option.bind_eq_bind, Option.bind_eq_some_iff,
      Option.some.injEq, Prod.mk.injEq] at h
    obtain ⟨repository, hrepository, rfl, -⟩ := h
    exact ⟨hs.update hrepository (by simp), rfl⟩

theorem newRepository_wellKeyed (hs : s.WellKeyed)
    (hres : s.heap.find res = none) :
    WellKeyed { s with heap := s.heap.assign res repository } := by
  intro guid ptr hptr
  obtain ⟨res', r, rfl, hr, hkey⟩ := hs guid ptr hptr
  have hne : res' ≠ res := by
    rintro rfl
    rw [hres] at hr
    cases hr
  exact ⟨res', r, rfl, (StdMap.find_assign_of_ne hne).trans hr, hkey⟩

theorem callCorrect_of_dataMap_eq {c : Call}
    (hlookup : c.isLookup) (h : s'.dataMap = s.dataMap) :
    CallCorrect s c s' reply := by
  refine ⟨fun _ => h, ?_⟩
  rintro resdes data file guid rfl
  cases hlookup

theorem call_spec {c : Call}
    (h : s.call c = some (s', reply)) (hs : s.WellKeyed)
    (hsafe : c.Safe s) : s'.WellKeyed ∧ CallCorrect s c s' reply := by
  cases c with
  | newRepository res repository =>
    simp only [call] at h
    split at h
    · cases h
    · rename_i hres
      cases h
      refine ⟨newRepository_wellKeyed hs (by simpa using hres), ?_⟩
      simp [CallCorrect, Call.isLookup]
  | createDataRepository resdes data file =>
    cases data with
    | none =>
      cases h
      exact ⟨hs, by simp [CallCorrect, Call.isLookup]⟩
    | some data =>
      simp only [call, Option.map_eq_some_iff, Prod.exists,
        Prod.mk.injEq] at h
      obtain ⟨_, guid, hcreate, rfl, rfl⟩ := h
      obtain ⟨hkeyed, hfound⟩ :=
        createDataRepository_spec hcreate hs hsafe
      refine ⟨hkeyed, ?_⟩
      constructor
      · intro hlookup
        cases hlookup
      · rintro _ _ _ _ ⟨⟩ ⟨⟩ hne
        simp [call, hfound hne]
  | fitOnDataRespository res =>
    cases res with
    | none =>
      cases h
      exact ⟨hs, by simp [CallCorrect, Call.isLookup]⟩
    | some res =>
      simp only [call, Option.map_eq_some_iff, Prod.mk.injEq] at h
      obtain ⟨_, hfit, rfl, rfl⟩ := h
      exact ⟨fitOnDataRespository_wellKeyed hfit hs,
        by simp [CallCorrect, Call.isLookup]⟩
  | dischargeDataRespository res =>
    cases h
    exact ⟨removeEntry_wellKeyed hs res,
      by simp [CallCorrect, Call.isLookup]⟩
  | deleteDataRepository guid =>
    cases h
    exact ⟨removeEntry_wellKeyed hs guid,
      by simp [CallCorrect, Call.isLookup]⟩
  | push resGuid data =>
    cases data with
    | none =>
      cases h
      exact ⟨hs, callCorrect_of_dataMap_eq rfl rfl⟩
    | some data =>
      simp only [call] at h
      obtain ⟨hkeyed, hmap⟩ := withEntry_spec (by simp) h hs
      exact ⟨hkeyed, callCorrect_of_dataMap_eq rfl hmap⟩
  | pop resGuid =>
    simp only [call] at h
    obtain ⟨hkeyed, hmap⟩ := withEntry_spec (by simp) h hs
    exact ⟨hkeyed, callCorrect_of_dataMap_eq rfl hmap⟩
  | getResBlockSize resGuid fileSize =>
    simp only [call] at h
    obtain ⟨hkeyed, hmap⟩ := withEntry_spec (fun _ => rfl) h hs
    exact ⟨hkeyed, callCorrect_of_dataMap_eq rfl hmap⟩
  | setResBlockSize resGuid count =>
    simp only [call] at h
    obtain ⟨hkeyed, hmap⟩ := withEntry_spec (by simp) h hs
    exact ⟨hkeyed, callCorrect_of_dataMap_eq rfl hmap⟩
  | resProgressDisk resGuid =>
    simp only [call] at h
    obtain ⟨hkeyed, hmap⟩ := withEntry_spec (fun _ => rfl) h hs
    exact ⟨hkeyed, callCorrect_of_dataMap_eq rfl hmap⟩
  | getResourceMd5 resGuid md5 =>
    simp only [call, Option.map_eq_some_iff, Prod.exists,
      Prod.mk.injEq] at h
    obtain ⟨_, result, hmd5, rfl, rfl⟩ := h
    obtain ⟨hkeyed, hmap⟩ := getResourceMd5_spec hmd5 hs hsafe
    exact ⟨hkeyed, callCorrect_of_dataMap_eq rfl hmap⟩
  | getRespositoryByGUID guid =>
    cases h
    exact ⟨hs, callCorrect_of_dataMap_eq rfl rfl⟩

/-- The registry is in order, and the next call is correct if it is one of
those that `allowed` admits. -/
def InOrder (allowed : Registry → Call → Prop) (s : Registry) : Prop :=
  s.WellKeyed ∧
    ∀ c s' reply, allowed s c → s.call c = some (s', reply) →
      CallCorrect s c s' reply

theorem wellKeyed_of_reachable
    (h : ReachableVia (· = new) step (fun s c => c.Safe s) s) :
    s.WellKeyed := by
  refine h.invariant (fun s hs => hs ▸ wellKeyed_new) ?_
  intro s c t hs hsafe hstep
  obtain ⟨⟨_, reply⟩, hcall, rfl⟩ := Option.map_eq_some_iff.mp hstep
  exact (call_spec hcall hs hsafe).1

/-- In every run of safe calls the registry stays in order and every call is
correct. -/
theorem inOrder_of_safe_run
    (h : ReachableVia (· = new) step (fun s c => c.Safe s) s) :
    InOrder (fun s c => c.Safe s) s :=
  ⟨wellKeyed_of_reachable h, fun _ _ _ hsafe hcall =>
    (call_spec hcall (wellKeyed_of_reachable h) hsafe).2⟩

/-- The description of a transfer to a file `f` under the guid `g`. -/
def sampleDescription : FileResDescription := ⟨[0x67], [0x66]⟩

/-- A receiving repository is allocated and created under `g`. -/
def sampleCalls (res : RepositoryPtr) : List Call :=
  [.newRepository res (.receiver .new),
    .createDataRepository sampleDescription (some res) (some [])]

def sampleRegistry : Registry := (execute step new (sampleCalls 0)).getD new

theorem inOrder_sampleRegistry :
    InOrder (fun s c => c.Safe s) sampleRegistry := by
  refine inOrder_of_safe_run (.step (.step (.init rfl)
    (e := .newRepository 0 (.receiver .new)) trivial rfl)
    (e := .createDataRepository sampleDescription (some 0) (some []))
    ?_ rfl)
  rintro repository ⟨⟩
  rw [if_pos (by decide)]
  constructor
  · intro guid hguid
    cases hguid
  · intro _ ptr hptr
    cases hptr

/-- A guid that is used again still finds the repository of the earlier
transfer. -/
theorem not_forall_inOrder :
    ¬∀ s, Reachable (· = new) step s → InOrder (fun _ _ => True) s := by
  intro h
  have hreach : ∀ s, execute step new (sampleCalls 0 ++
      [.newRepository 1 (.receiver .new)]) = some s →
      Reachable (· = new) step s :=
    fun s hs => reachable_of_execute rfl hs
  have horder := (h _ (hreach _ rfl)).2
    (.createDataRepository sampleDescription (some 1) (some [])) _
    (.str [0x67]) trivial rfl
  have hfound := horder.2 _ _ _ _ rfl rfl (by decide)
  have hptr := congrArg (Option.map Prod.snd) hfound
  revert hptr
  decide

end Registry

end WebrtcWinXp.FileTransfer
