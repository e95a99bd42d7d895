import WebrtcWinXp.P2pData.WebrtcClient

/-!
# Signing in only on accepted responses

A response is accepted with the status 200 and the end of its header.  Of the
lines in its body, those with a name, an identifier and a third field are
expected to be recorded.
-/

namespace WebrtcWinXp.P2pData

open Support

/-! ## Lines -/

def terminatedLines (body : Str) : List Str := (body.splitOn '\n').dropLast

theorem terminatedLines_of_not_mem {body : Str} (h : '\n' ∉ body) :
    terminatedLines body = [] := by
  rw [terminatedLines, List.splitOn_eq_singleton h]
  rfl

theorem terminatedLines_append {l rest : Str} (h : '\n' ∉ l) :
    terminatedLines (l ++ '\n' :: rest) = l :: terminatedLines rest := by
  rw [terminatedLines, List.splitOn_append_cons_self_of_not_mem h,
    List.dropLast_cons_of_ne_nil (List.splitOn_ne_nil _ _)]
  rfl

theorem readDigits_append_comma (s rest : Str) :
    readDigits (s ++ ',' :: rest) = readDigits s := by
  have htake : (s ++ ',' :: rest).takeWhile Char.isDigit =
      s.takeWhile Char.isDigit := by
    induction s with
    | nil => rfl
    | cons c s ih =>
      rw [List.cons_append, List.takeWhile_cons, List.takeWhile_cons, ih]
  rw [readDigits, htake, readDigits]

theorem readSigned_append_comma (s rest : Str) :
    readSigned (s ++ ',' :: rest) = readSigned s := by
  cases s with
  | nil => rfl
  | cons c s =>
    by_cases hminus : c = '-'
    · subst hminus
      exact congrArg Neg.neg (readDigits_append_comma s rest)
    · by_cases hplus : c = '+'
      · subst hplus
        exact readDigits_append_comma s rest
      · have hread (t : Str) : readSigned (c :: t) = readDigits (c :: t) :=
          readSigned.eq_3 _
            (fun _ heq => hminus (List.cons_eq_cons.mp heq).1)
            fun _ heq => hplus (List.cons_eq_cons.mp heq).1
        rw [List.cons_append, hread, hread]
        exact readDigits_append_comma (c :: s) rest

theorem readInt_append_comma (s rest : Str) :
    readInt (s ++ ',' :: rest) = readInt s := by
  induction s with
  | nil => rfl
  | cons c s ih =>
    by_cases hspace : isSpace c
    · unfold readInt at ih ⊢
      rw [List.cons_append, List.dropWhile_cons_of_pos hspace,
        List.dropWhile_cons_of_pos hspace]
      exact ih
    · unfold readInt
      rw [List.cons_append, List.dropWhile_cons_of_neg hspace,
        List.dropWhile_cons_of_neg hspace]
      exact readSigned_append_comma (c :: s) rest

theorem atoi_append_comma (env : Environment) (s rest : Str) :
    atoi env (s ++ ',' :: rest) = atoi env s := by
  rw [atoi, atoi, readInt_append_comma]

variable (env : Environment)

/-- The entry of a line that is recorded: the name is not empty, and a comma
stands behind it. -/
def recordedPeer (line : Str) : Option (UInt32 × Str) :=
  match line.splitOn ',' with
  | name :: id :: _ =>
    if name = [] then none else some ((atoi env id).toUInt32, name)
  | _ => none

/-- The entry of a line that has the form `name,id,connected`. -/
def listedPeer (line : Str) : Option (UInt32 × Str) :=
  match line.splitOn ',' with
  | name :: id :: _ :: _ =>
    if name = [] then none else some ((atoi env id).toUInt32, name)
  | _ => none

variable {env : Environment}

theorem atoi_head_splitOn {s field : Str} {fields : List Str}
    (h : s.splitOn ',' = field :: fields) : atoi env s = atoi env field := by
  by_cases hcomma : ',' ∈ s
  · obtain ⟨l, rest, rfl, hl⟩ := List.eq_append_cons_of_mem hcomma
    rw [List.splitOn_append_cons_self_of_not_mem hl] at h
    rw [atoi_append_comma, (List.cons_eq_cons.mp h).1]
  · rw [List.splitOn_eq_singleton hcomma] at h
    rw [(List.cons_eq_cons.mp h).1]

/-- What `ParseEntry` accepts is what is recorded. -/
theorem parseEntry_eq (line : Str) (id : UInt32) :
    let r := parseEntry env line ⟨[], id, false⟩
    (if r.1 then some (r.2.id, r.2.name) else none) =
      recordedPeer env line := by
  by_cases hcomma : ',' ∈ line
  · obtain ⟨name, rest, rfl, hname⟩ := List.eq_append_cons_of_mem hcomma
    have hfind : find [','] (name ++ ',' :: rest) 0 = some name.length :=
      (find_singleton_of_drop rfl hname).trans
        (congrArg some (Nat.zero_add _))
    have hdrop : (name ++ ',' :: rest).drop (name.length + 1) = rest := by
      rw [← List.drop_drop, List.drop_left]
      rfl
    have hname' : substr (name ++ ',' :: rest) 0 name.length = name :=
      List.take_left
    unfold parseEntry
    rw [hfind]
    dsimp only
    rw [hname', hdrop, recordedPeer,
      List.splitOn_append_cons_self_of_not_mem hname]
    obtain ⟨field, fields, hfields⟩ :=
      List.exists_cons_of_ne_nil (List.splitOn_ne_nil ',' rest)
    rw [hfields, atoi_head_splitOn hfields]
    cases name with
    | nil => rfl
    | cons c name => rfl
  · rw [recordedPeer, List.splitOn_eq_singleton hcomma]
    unfold parseEntry
    rw [find_singleton_of_not_mem hcomma]
    rfl

/-! ## The loop over the lines -/

def ClientEvent.peer? : ClientEvent → Option (UInt32 × Str)
  | .recordPeer id name => some (id, name)
  | _ => none

def recordedPeers {α : Type} (r : Traced ClientEvent α) : List (UInt32 × Str) :=
  r.trace.filterMap ClientEvent.peer?

theorem recordedPeers_bind {α β : Type} (x : Traced ClientEvent α)
    (f : α → Traced ClientEvent β) :
    recordedPeers (x >>= f) = recordedPeers x ++ recordedPeers (f x.value) :=
  List.filterMap_append

variable {text : Str} {myID : Int32} {l : PeerLoop}

theorem peerStep_lowers :
    Lowers (fun l => (peerStep env text myID l).value)
      (fun l => text.length - l.pos) := by
  intro l l' h
  dsimp only at h ⊢
  unfold peerStep at h
  split at h
  · rename_i hlt
    split at h
    · cases h
    · rename_i eol heol
      have hpos := (find_eq_some_iff.mp heol).2.1
      dsimp only at h
      split at h <;>
      · rw [← Option.some.inj h]
        dsimp only
        omega
  · cases h

theorem peerStep_of_not_mem (h : '\n' ∉ text.drop l.pos) :
    peerStep env text myID l = pure none := by
  unfold peerStep
  rw [find_singleton_of_not_mem h]
  split <;> rfl

theorem peerStep_of_drop {line rest : Str}
    (hdrop : text.drop l.pos = line ++ '\n' :: rest) (hline : '\n' ∉ line) :
    (∃ peers, (peerStep env text myID l).value =
      some ⟨l.pos + line.length + 1, peers⟩) ∧
    recordedPeers (peerStep env text myID l) =
      (recordedPeer env line).toList.filter fun p => p.1 ≠ myID.toUInt32 := by
  have hlength := congrArg List.length hdrop
  rw [List.length_drop, List.length_append, List.length_cons] at hlength
  have hentry := @parseEntry_eq env line 0
  unfold peerStep
  rw [if_pos (by omega), find_singleton_of_drop hdrop hline]
  dsimp only at hentry ⊢
  rw [Nat.add_sub_cancel_left, substr_of_drop hdrop, ← hentry]
  generalize parseEntry env line ⟨[], 0, false⟩ = r
  obtain ⟨ok, e⟩ := r
  cases ok with
  | false => exact ⟨⟨_, rfl⟩, rfl⟩
  | true =>
    rw [Bool.true_and, if_pos rfl]
    by_cases hid : e.id = myID.toUInt32
    · rw [if_neg (by simp [hid])]
      exact ⟨⟨_, rfl⟩, by simp [recordedPeers, hid]⟩
    · rw [if_pos (by simp [hid])]
      exact ⟨⟨_, rfl⟩, by simp [recordedPeers, hid, ClientEvent.peer?]⟩

theorem recordedPeers_loop {n : ℕ} (hn : text.length - l.pos < n) :
    recordedPeers (Traced.loop (peerStep env text myID) n l) =
      ((terminatedLines (text.drop l.pos)).filterMap
        (recordedPeer env)).filter fun p => p.1 ≠ myID.toUInt32 := by
  induction n generalizing l with
  | zero => exact absurd hn (Nat.not_lt_zero _)
  | succ n ih =>
    rw [Traced.loop, recordedPeers_bind]
    by_cases hmem : '\n' ∈ text.drop l.pos
    · obtain ⟨line, rest, hdrop, hline⟩ := List.eq_append_cons_of_mem hmem
      obtain ⟨⟨peers, hvalue⟩, hrecorded⟩ :=
        @peerStep_of_drop env text myID l line rest hdrop hline
      rw [hvalue, hrecorded, hdrop, terminatedLines_append hline]
      dsimp only
      rw [ih ((peerStep_lowers l _ hvalue).trans_le
        (Nat.lt_succ_iff.mp hn))]
      rw [drop_succ_of_drop hdrop, ← List.filter_append]
      cases hentry : recordedPeer env line with
      | none => rw [List.filterMap_cons_none hentry]; rfl
      | some p => rw [List.filterMap_cons_some hentry]; rfl
    · rw [peerStep_of_not_mem hmem, terminatedLines_of_not_mem hmem]
      rfl

theorem listedPeer_eq_none_or (line : Str) :
    listedPeer env line = none ∨
      listedPeer env line = recordedPeer env line := by
  unfold recordedPeer listedPeer
  generalize line.splitOn ',' = fields
  rcases fields with _ | ⟨name, _ | ⟨id, _ | ⟨field, fields⟩⟩⟩
  · exact .inl rfl
  · exact .inl rfl
  · exact .inl rfl
  · exact .inr rfl

/-- The recorded entries are the listed ones when a line with one comma has no
name, or the identifier of the client. -/
theorem recordedPeer_eq_listedPeer_iff (line : Str) (myID : UInt32) :
    (recordedPeer env line).filter (fun p => p.1 ≠ myID) =
        (listedPeer env line).filter (fun p => p.1 ≠ myID) ↔
      ∀ name id, line.splitOn ',' = [name, id] →
        name = [] ∨ (atoi env id).toUInt32 = myID := by
  unfold recordedPeer listedPeer
  generalize line.splitOn ',' = fields
  rcases fields with _ | ⟨name, _ | ⟨id, _ | ⟨field, fields⟩⟩⟩
  · exact iff_of_true rfl nofun
  · exact iff_of_true rfl nofun
  · dsimp only
    rw [Option.filter_none]
    constructor
    · rintro hfilter _ _ ⟨⟩
      by_cases hname : name = []
      · exact .inl hname
      · rw [if_neg hname] at hfilter
        exact .inr (by simpa [Option.filter] using hfilter)
    · intro h
      rcases h name id rfl with hname | hid
      · rw [if_pos hname, Option.filter_none]
      · split
        · rfl
        · simp [Option.filter, hid]
  · exact iff_of_true rfl nofun

variable (env)

def Accepted (data : Str) : Prop :=
  getResponseStatus env (cStr data) = 200 ∧ kHeaderEnd <:+: data

def bodyOf (data : Str) : Str :=
  data.drop ((find kHeaderEnd data 0).getD 0 + 4)

/-- The identifier that the response assigns to the client. -/
def assignedID (data : Str) : UInt32 := (parseEnd env data).peerId

def expectedPeers (data : Str) : List (UInt32 × Str) :=
  ((terminatedLines (bodyOf data)).filterMap (listedPeer env)).filter
    fun p => p.1 ≠ assignedID env data

namespace Session

/-- `OnRead` reads the list of peers from a response that was accepted, when
it is the first one and has a body. -/
def ReadsPeers (s : Session) (data : Str) : Prop :=
  Accepted env data ∧ s.client.inner ∧ (s.readIntoBuffer env data).ret ∧
    (s.readIntoBuffer env data).contentLength ≠ 0 ∧ ¬s.isConnectSuccese

variable {env}

/-- The client is signed in no more than before. -/
structure KeptOut (s : Session) (r : Traced ClientEvent Session) : Prop where
  myID : r.value.isConnectSuccese → r.value.client.myID = s.client.myID
  peers : ∀ id name, r.value.client.peers.find id = some name →
    s.client.peers.find id = some name
  state : r.value.base.state = .CONNECTED → s.base.state = .CONNECTED
  events : .onSignedIn ∉ r.trace

variable (env)

/-- How a response is handled in a state of the client: only an accepted one
signs in, and exactly the listed peers are recorded. -/
structure HandlesResponse (s : Session) (data : Str) : Prop where
  accepted : (s.parseServerResponse env data).value.1.ok → Accepted env data
  keptOut : ¬Accepted env data → s.KeptOut (s.onRead env data)
  ends : ∀ myID l, (Traced.loop (peerStep env data myID)
    (data.length - l.pos + 1) l).value ≠ none
  recorded : s.ReadsPeers env data →
    recordedPeers (s.onRead env data) = expectedPeers env data
  unrecorded : ¬s.ReadsPeers env data → recordedPeers (s.onRead env data) = []

/-- A client with a parent gets no other status than 200 in a whole header,
and every line that is read from a body and has just two fields has no name,
or the identifier of the client. -/
def Conforming (s : Session) (data : Str) : Prop :=
  (s.client.parent → kHeaderEnd <:+: data →
    getResponseStatus env (cStr data) = 200) ∧
  (s.ReadsPeers env data → ∀ line ∈ terminatedLines (bodyOf data),
    ∀ name id, line.splitOn ',' = [name, id] →
      name = [] ∨ (atoi env id).toUInt32 = assignedID env data)

variable {env} {s : Session} {data : Str}

theorem parseEnd_ok : (parseEnd env data).ok ↔ kHeaderEnd <:+: data := by
  rw [← find_isSome_iff, parseEnd]
  cases find kHeaderEnd data 0 with
  | none => exact Iff.rfl
  | some eoh => exact Iff.rfl

theorem parseServerResponse_ok :
    (s.parseServerResponse env data).value.1.ok ↔
      kHeaderEnd <:+: data ∧ (s.client.parent ∨
        getResponseStatus env (cStr data) = 200) := by
  rw [← @parseEnd_ok env data]
  unfold parseServerResponse
  split
  · rename_i hstatus
    split
    · rename_i hparent
      exact (and_iff_left (.inl hparent)).symm
    · rename_i hparent
      exact iff_of_false nofun fun h => h.2.elim hparent hstatus
  · rename_i hstatus
    exact (and_iff_left (.inr (not_not.mp hstatus))).symm

/-! ## Reading -/

theorem readIntoBuffer_ret (h : (s.readIntoBuffer env data).ret) :
    kHeaderEnd <:+: data := by
  rw [← find_isSome_iff]
  unfold readIntoBuffer at h
  split at h
  · cases h
  · rename_i i hi
    rw [hi]
    rfl

theorem onRead_of_not_read
    (h : ¬(s.client.inner ∧ (s.readIntoBuffer env data).ret)) :
    s.onRead env data = pure s := by
  unfold onRead
  cases hinner : s.client.inner with
  | false => rfl
  | true =>
    have hret : (s.readIntoBuffer env data).ret = false :=
      Bool.not_eq_true _ ▸ fun hret => h ⟨hinner, hret⟩
    dsimp only
    rw [hret]
    rfl

theorem not_isConnectSuccese_close : s.close.isConnectSuccese = false := by
  unfold close closeBase isConnectSuccese
  dsimp only
  split
  · dsimp only
    split <;> rfl
  · rfl

theorem close_peers : s.close.client.peers = .empty := by
  unfold close closeBase
  dsimp only
  split
  · dsimp only
    split <;> rfl
  · rfl

theorem close_state (hinner : s.client.inner) :
    s.close.base.state = .NOT_CONNECTED := by
  unfold close
  dsimp only
  rw [if_pos hinner]
  rfl

theorem finishRead_state_of_not_connected
    (h : s.base.state = .NOT_CONNECTED) :
    (s.finishRead env).base.state = .NOT_CONNECTED := by
  unfold finishRead
  rw [h]
  rfl

theorem keptOut_close (hinner : s.client.inner) (close : Bool) :
    s.KeptOut (pure ((s.storeResponse data close).close.finishRead env)) where
  myID h :=
    (Bool.false_ne_true (not_isConnectSuccese_close.symm.trans h)).elim
  peers id name h := by
    have hfind : (s.storeResponse data close).close.client.peers.find id =
      some name := h
    rw [close_peers] at hfind
    cases hfind
  state h := by
    have hstate : ((s.storeResponse data close).close.finishRead
      env).base.state = .CONNECTED := h
    rw [finishRead_state_of_not_connected
      (close_state (s := s.storeResponse data close) hinner)] at hstate
    cases hstate
  events := List.not_mem_nil

theorem onRead_of_rejected (hinner : s.client.inner)
    (hret : (s.readIntoBuffer env data).ret) (hparent : s.client.parent = false)
    (hstatus : getResponseStatus env (cStr data) ≠ 200) :
    s.onRead env data =
      pure ((s.storeResponse data (s.readIntoBuffer env data).close).close
        |>.finishRead env) := by
  unfold onRead
  dsimp only
  rw [hinner, hret]
  unfold parseServerResponse
  rw [if_pos hstatus, show (s.storeResponse _ _).client.parent = false from
    hparent]
  rfl

theorem recordedPeers_onRead_of_accepted (haccepted : Accepted env data)
    (hinner : s.client.inner) (hret : (s.readIntoBuffer env data).ret) :
    recordedPeers (s.onRead env data) = recordedPeers
      ((s.storeResponse data (s.readIntoBuffer env data).close).handleResponse
        env data (s.readIntoBuffer env data).contentLength
          (parseEnd env data)) := by
  have hok := (@parseEnd_ok env data).mpr haccepted.2
  unfold onRead
  dsimp only
  rw [hinner, hret]
  unfold parseServerResponse
  rw [if_neg (not_not.mpr haccepted.1), Bool.not_true, if_neg nofun,
    if_neg nofun, recordedPeers_bind]
  dsimp only [Traced.value_pure]
  rw [if_pos hok, recordedPeers_bind]
  exact List.append_nil _

theorem recordedPeers_readPeers (eoh : ℕ) :
    recordedPeers (s.readPeers env data eoh) =
      ((terminatedLines (data.drop (eoh + 4))).filterMap
        (recordedPeer env)).filter fun p => p.1 ≠ s.client.myID.toUInt32 := by
  unfold readPeers Traced.finish
  rw [recordedPeers_bind, recordedPeers_bind,
    recordedPeers_loop (Nat.lt_succ_self _)]
  exact (List.append_nil _).trans (List.append_nil _)

theorem recordedPeers_signIn (contentLength : UInt32) (r : ParseResult) :
    recordedPeers (s.signIn env data contentLength r) =
      if contentLength = 0 then []
      else ((terminatedLines (data.drop (r.eoh + 4))).filterMap
        (recordedPeer env)).filter fun p => p.1 ≠ r.peerId := by
  unfold signIn
  dsimp only
  by_cases hzero : contentLength = 0
  · rw [if_neg (not_not.mpr hzero), if_pos hzero]
    rfl
  · rw [if_pos hzero, if_neg hzero, recordedPeers_readPeers]
    dsimp only
    rw [UInt32.toUInt32_toInt32]

theorem recordedPeers_handleResponse (contentLength : UInt32)
    (r : ParseResult) :
    recordedPeers (s.handleResponse env data contentLength r) =
      if s.isConnectSuccese then []
      else recordedPeers (s.signIn env data contentLength r) := by
  unfold handleResponse
  cases s.isConnectSuccese with
  | true =>
    rw [Bool.not_true, if_neg Bool.false_ne_true, if_pos rfl]
    split
    · split <;> rfl
    · split <;> rfl
  | false =>
    rw [Bool.not_false, if_pos rfl, if_neg Bool.false_ne_true,
      recordedPeers_bind]
    split <;> exact List.append_nil _

theorem parseEnd_eoh :
    (parseEnd env data).eoh = (find kHeaderEnd data 0).getD 0 := by
  unfold parseEnd
  cases find kHeaderEnd data 0 with
  | none => rfl
  | some eoh => rfl

theorem recordedPeers_onRead_of_readsPeers (h : s.ReadsPeers env data) :
    recordedPeers (s.onRead env data) =
      ((terminatedLines (bodyOf data)).filterMap (recordedPeer env)).filter
        fun p => p.1 ≠ assignedID env data := by
  obtain ⟨haccepted, hinner, hret, hlength, hsigned⟩ := h
  rw [recordedPeers_onRead_of_accepted haccepted hinner hret,
    recordedPeers_handleResponse,
    if_neg (show ¬(s.storeResponse _ _).isConnectSuccese from hsigned),
    recordedPeers_signIn, if_neg hlength, parseEnd_eoh]
  rfl

theorem recordedPeers_onRead_eq_nil (h : ¬s.ReadsPeers env data)
    (hstatus : s.client.parent → kHeaderEnd <:+: data →
      getResponseStatus env (cStr data) = 200) :
    recordedPeers (s.onRead env data) = [] := by
  by_cases hread : s.client.inner ∧ (s.readIntoBuffer env data).ret
  · obtain ⟨hinner, hret⟩ := hread
    by_cases haccepted : Accepted env data
    · rw [recordedPeers_onRead_of_accepted haccepted hinner hret,
        recordedPeers_handleResponse, recordedPeers_signIn]
      split
      · rfl
      · rename_i hsigned
        rw [if_pos]
        by_contra hlength
        exact h ⟨haccepted, hinner, hret, hlength, hsigned⟩
    · have hend := readIntoBuffer_ret hret
      rw [onRead_of_rejected hinner hret
        (Bool.eq_false_iff.mpr fun hparent =>
          haccepted ⟨hstatus hparent hend, hend⟩)
        fun heq => haccepted ⟨heq, hend⟩]
      rfl
  · rw [onRead_of_not_read hread]
    rfl

theorem keptOut_onRead (haccepted : ¬Accepted env data)
    (hstatus : s.client.parent → kHeaderEnd <:+: data →
      getResponseStatus env (cStr data) = 200) :
    s.KeptOut (s.onRead env data) := by
  by_cases hread : s.client.inner ∧ (s.readIntoBuffer env data).ret
  · obtain ⟨hinner, hret⟩ := hread
    have hend := readIntoBuffer_ret hret
    rw [onRead_of_rejected hinner hret
      (Bool.eq_false_iff.mpr fun hparent =>
        haccepted ⟨hstatus hparent hend, hend⟩)
      fun heq => haccepted ⟨heq, hend⟩]
    exact keptOut_close hinner _
  · rw [onRead_of_not_read hread]
    exact ⟨fun _ => rfl, fun _ _ h => h, fun h => h, List.not_mem_nil⟩

theorem loop_peerStep_ends (myID : Int32) (l : PeerLoop) :
    (Traced.loop (peerStep env data myID) (data.length - l.pos + 1) l).value ≠
      none := by
  rw [Traced.value_loop]
  obtain ⟨t, ht⟩ := exists_loop_eq_some peerStep_lowers
    (Nat.lt_succ_self (data.length - l.pos))
  rw [ht]
  nofun

theorem filter_recordedPeer_eq_iff (lines : List Str) (myID : UInt32) :
    (lines.filterMap (recordedPeer env)).filter (fun p => p.1 ≠ myID) =
        (lines.filterMap (listedPeer env)).filter (fun p => p.1 ≠ myID) ↔
      ∀ line ∈ lines, ∀ name id, line.splitOn ',' = [name, id] →
        name = [] ∨ (atoi env id).toUInt32 = myID := by
  rw [List.filter_filterMap, List.filter_filterMap,
    filterMap_eq_filterMap_iff]
  · exact forall₂_congr fun line _ => recordedPeer_eq_listedPeer_iff line myID
  · intro line
    rcases listedPeer_eq_none_or line with hnone | hsame
    · exact .inl (by rw [hnone]; rfl)
    · exact .inr (by rw [hsame])

theorem handlesResponse_of_conforming (h : s.Conforming env data) :
    s.HandlesResponse env data where
  accepted hok := by
    obtain ⟨hend, hparent | hstatus⟩ := parseServerResponse_ok.mp hok
    · exact ⟨h.1 hparent hend, hend⟩
    · exact ⟨hstatus, hend⟩
  keptOut haccepted := keptOut_onRead haccepted h.1
  ends := loop_peerStep_ends
  recorded hreads :=
    (recordedPeers_onRead_of_readsPeers hreads).trans
      ((filter_recordedPeer_eq_iff _ _).mpr (h.2 hreads))
  unrecorded hreads := recordedPeers_onRead_eq_nil hreads h.1

theorem conforming_of_handlesResponse (h : s.HandlesResponse env data) :
    s.Conforming env data :=
  ⟨fun hparent hend =>
    (h.accepted (parseServerResponse_ok.mpr ⟨hend, .inl hparent⟩)).1,
    fun hreads => (filter_recordedPeer_eq_iff _ _).mp
      ((recordedPeers_onRead_of_readsPeers hreads).symm.trans
        (h.recorded hreads))⟩

/-- The property of a response holds if and only if it conforms. -/
theorem handlesResponse_iff (env : Environment) (s : Session) (data : Str) :
    s.HandlesResponse env data ↔ s.Conforming env data :=
  ⟨conforming_of_handlesResponse, handlesResponse_of_conforming⟩

def sampleEnvironment : Environment where
  controlConnects := true
  hangingConnects := true
  outOfRange _ := 0

def signingIn : Session where
  client := ⟨-1, -1, .empty, true, true⟩
  base := ⟨.SIGNING_IN, [], [], false, true, true⟩

def serverError : Str :=
  "HTTP/1.0 500 Error\r\nContent-Length: 8\r\nPragma: 7\r\n\r\nbob,8,1\n".toList

/-- An accepted response with a line that has two fields. -/
def shortLine : Str :=
  "HTTP/1.0 200 OK\r\nContent-Length: 6\r\nPragma: 7\r\n\r\nbob,8\n".toList

/-- The error is taken for a success, and signs the client in; and an entry
without a third field is recorded. -/
theorem not_handlesResponse_samples :
    [serverError, shortLine].Forall fun data =>
      ¬signingIn.HandlesResponse sampleEnvironment data := by
  refine ⟨fun h => ?_, fun h => ?_⟩
  · have hkept := h.keptOut fun haccepted =>
      absurd haccepted.1 (by decide +kernel)
    exact absurd (hkept.myID (by decide +kernel)) (by decide +kernel)
  · have hrecorded := h.recorded
      ⟨⟨by decide +kernel, by decide +kernel⟩, rfl, by decide +kernel,
        by decide +kernel, by decide +kernel⟩
    exact absurd hrecorded (by decide +kernel)

end Session

end WebrtcWinXp.P2pData
