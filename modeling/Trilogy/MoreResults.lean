import Trilogy.Rows

namespace Trilogy

open Lib Proc

/-- `TRILOGY_SERVER_STATUS_MORE_RESULTS_EXISTS` -/
def moreResultsExist : UInt16 := 0x0008

/-- The reply to a statement. -/
inductive Result
  | ok (reply : OkReply)
  | set (columns : List Column) (columnEof : EofPacket) (rows : List (List Value))
      (terminator : OkReply)

namespace Result

def status : Result → UInt16
  | ok reply => reply.status
  | set _ _ _ terminator => terminator.status

def packets (capabilities : UInt32) : Result → List (List UInt8)
  | ok reply => [reply.bytes Packet.ok capabilities]
  | set columns columnEof rows terminator =>
    Conn.resultSet capabilities columns columnEof (rows.map textRow) terminator

def Sendable (capabilities : UInt32) : Result → Prop
  | ok reply => reply.Sendable capabilities ∧ reply.Trackable
  | set columns _ rows terminator =>
    columns ≠ [] ∧ columns.length < 2 ^ 64 ∧ (∀ column ∈ columns, column.Sendable) ∧
      Conn.RowsOf columns.length rows ∧ Conn.Terminates capabilities terminator

end Result

/-- An error, in place of a result or in place of the end of its rows. -/
inductive Failure
  | atOnce (error : ErrReply)
  | inRows (columns : List Column) (columnEof : EofPacket) (rows : List (List Value))
      (error : ErrReply)

namespace Failure

def packets (capabilities : UInt32) : Failure → List (List UInt8)
  | atOnce error => [error.bytes capabilities]
  | inRows columns columnEof rows error =>
    lenenc columns.length :: (columns.map columnBytes ++
      ((if has capabilities Capabilities.deprecateEof then []
        else [eofBytes capabilities columnEof.warning_count columnEof.status_flags]) ++
      (rows.map textRow ++ [error.bytes capabilities])))

def Sendable : Failure → Prop
  | atOnce _ => True
  | inRows columns _ rows _ =>
    columns ≠ [] ∧ columns.length < 2 ^ 64 ∧ (∀ column ∈ columns, column.Sendable) ∧
      Conn.RowsOf columns.length rows

/-- The status that was reported last when the error comes, starting from `status`. -/
def statusBefore (capabilities : UInt32) (status : UInt16) : Failure → UInt16
  | atOnce _ => status
  | inRows _ columnEof _ _ =>
    if has capabilities Capabilities.deprecateEof then status else columnEof.status_flags

end Failure

/-- What a server sends for one command. -/
inductive Response
  | last (result : Result)
  | failed (failure : Failure)
  | more (result : Result) (next : Response)

namespace Response

def packets (capabilities : UInt32) : Response → List (List UInt8)
  | last result => result.packets capabilities
  | failed failure => failure.packets capabilities
  | more result next => result.packets capabilities ++ next.packets capabilities

/-- The bit is set in the status of a result exactly when another one follows. -/
def WellFormed (capabilities : UInt32) : Response → Prop
  | last result => result.Sendable capabilities ∧ result.status &&& moreResultsExist = 0
  | failed failure => failure.Sendable
  | more result next =>
    result.Sendable capabilities ∧ result.status &&& moreResultsExist ≠ 0 ∧
      next.WellFormed capabilities

/-- No error comes while the status that was reported last has the bit. -/
def ErrorsClear (capabilities : UInt32) : UInt16 → Response → Prop
  | _, last _ => True
  | status, failed failure => failure.statusBefore capabilities status &&& moreResultsExist = 0
  | _, more result next => next.ErrorsClear capabilities result.status

end Response

namespace Conn

def MoreResultsExist (c : Conn) : Prop := c.server_status &&& moreResultsExist ≠ 0

section

variable (alloc : Alloc)

/-- The calls that read a result completely. -/
inductive ReadResult : Conn → Result → Conn → Prop
  | ok {c c' reply} (query : Returns .again (queryRecv alloc) c (.ok none) c') :
      ReadResult c (.ok reply) c'
  | set {c c₁ c₂ c₃ c' columns columnEof rows terminator}
      (query : Returns .again (queryRecv alloc) c
        (.ok (some (UInt64.ofNat columns.length))) c₁)
      (definitions : Yields .again (readColumn alloc) c₁ columns c₂)
      (values : Yields .again (readRow alloc) c₂ rows c₃)
      (ends : Returns .again (readRow alloc) c₃ (.error .eof) c') :
      ReadResult c (.set columns columnEof rows terminator) c'

/-- The calls that get to an error. -/
inductive ReadFailure : Conn → Failure → Conn → Prop
  | atOnce {c c' error} (query : Returns .again (queryRecv alloc) c (.error .err) c') :
      ReadFailure c (.atOnce error) c'
  | inRows {c c₁ c₂ c₃ c' columns columnEof rows error}
      (query : Returns .again (queryRecv alloc) c
        (.ok (some (UInt64.ofNat columns.length))) c₁)
      (definitions : Yields .again (readColumn alloc) c₁ columns c₂)
      (values : Yields .again (readRow alloc) c₂ rows c₃)
      (ends : Returns .again (readRow alloc) c₃ (.error .err) c') :
      ReadFailure c (.inRows columns columnEof rows error) c'

/-- The whole response is read, and the bit is right after each of its results. -/
inductive Tracked : Conn → Response → Conn → Prop
  | last {c c' result} (read : ReadResult alloc c result c') (bit : ¬ c'.MoreResultsExist) :
      Tracked c (.last result) c'
  | failed {c c' failure} (read : ReadFailure alloc c failure c') (bit : ¬ c'.MoreResultsExist) :
      Tracked c (.failed failure) c'
  | more {c c₁ c' result next} (read : ReadResult alloc c result c₁) (bit : c₁.MoreResultsExist)
      (rest : Tracked c₁ next c') : Tracked c (.more result next) c'

end

variable {alloc : Alloc} {n : Nat} {c : Conn} {ps : List (List UInt8)} {rest : List UInt8}

theorem ReadResult.unique {result : Result} {c' c'' : Conn} (h : ReadResult alloc c result c')
    (h' : ReadResult alloc c result c'') : c' = c'' := by
  cases h with
  | ok query =>
    cases h' with
    | ok query' => exact (query.unique query').2
  | set query definitions values ends =>
    cases h' with
    | set query' definitions' values' ends' =>
      obtain ⟨-, rfl⟩ := query.unique query'
      obtain rfl := definitions.unique definitions'
      obtain rfl := values.unique values'
      exact (ends.unique ends').2

theorem ReadFailure.unique {failure : Failure} {c' c'' : Conn}
    (h : ReadFailure alloc c failure c') (h' : ReadFailure alloc c failure c'') : c' = c'' := by
  cases h with
  | atOnce query =>
    cases h' with
    | atOnce query' => exact (query.unique query').2
  | inRows query definitions values ends =>
    cases h' with
    | inRows query' definitions' values' ends' =>
      obtain ⟨-, rfl⟩ := query.unique query'
      obtain rfl := definitions.unique definitions'
      obtain rfl := values.unique values'
      exact (ends.unique ends').2

theorem queryRecv_ok {reply : OkReply}
    (h : Facing alloc n c (reply.bytes Packet.ok c.capabilities :: ps) rest)
    (sendable : reply.Sendable c.capabilities) (trackable : reply.Trackable)
    (p41 : has c.capabilities Capabilities.protocol41) :
    ∃ c', Returns .again (queryRecv alloc) c (.ok none) c' ∧ Facing alloc n c' ps rest ∧
      c'.capabilities = c.capabilities ∧ c'.server_status = reply.status := by
  obtain ⟨c₁, hbytes, hfacing, huntouched, hreturns⟩ := h.receive
  rw [← huntouched.capabilities] at hbytes sendable p41 ⊢
  obtain ⟨packet, hparse, hstatus, -⟩ := reply.parse_reply Packet.ok sendable trackable
  rw [← hbytes] at hparse
  obtain ⟨c', hread, hnoted, hstanding⟩ := readOkPacket_ok hparse
  have htype : c₁.currentPacketType = Packet.ok := currentPacketType_of_bytes (hbytes.trans rfl)
  refine ⟨c', hreturns _ _ ?_ (by simp), hfacing.sameWire hnoted.toSameWire,
    hnoted.capabilities, ?_⟩
  · rw [Proc.get_bind, if_pos htype, Proc.bind_of_ok hread]
    rfl
  · rw [noting, if_pos p41] at hstanding
    have hhead : (reply.head c₁.capabilities).status_flags = reply.status := if_pos p41
    exact (congrArg Prod.fst hstanding).trans (hstatus.trans hhead)

theorem queryRecv_err {error : ErrReply}
    (h : Facing alloc n c (error.bytes c.capabilities :: ps) rest) :
    ∃ c', Returns .again (queryRecv alloc) c (.error .err) c' ∧ Facing alloc n c' ps rest ∧
      c'.server_status = c.server_status := by
  obtain ⟨c₁, hbytes, hfacing, huntouched, hreturns⟩ := h.receive
  rw [← huntouched.capabilities] at hbytes
  have hparse := error.parse_bytes c₁.capabilities
  rw [← hbytes] at hparse
  obtain ⟨c', hread, hnoted, hstanding⟩ := @readErrPacket_err _ (Option UInt64) _ hparse
  have htype : c₁.currentPacketType = Packet.err := currentPacketType_of_bytes (hbytes.trans rfl)
  refine ⟨c', hreturns _ _ ?_ (by simp), hfacing.sameWire hnoted.toSameWire,
    (congrArg Prod.fst hstanding).trans huntouched.server_status⟩
  rw [Proc.get_bind, htype, if_neg (by decide), if_pos rfl, hread]

/-- A result is read completely, and its status is the last one reported. -/
theorem readResult {result : Result}
    (h : Facing alloc n c (result.packets c.capabilities ++ ps) rest)
    (sendable : result.Sendable c.capabilities)
    (p41 : has c.capabilities Capabilities.protocol41) :
    ∃ c', ReadResult alloc c result c' ∧ Facing alloc n c' ps rest ∧
      c'.capabilities = c.capabilities ∧ c'.server_status = result.status := by
  cases result with
  | ok reply =>
    obtain ⟨c', hquery, hfacing, hcapabilities, hstatus⟩ :=
      queryRecv_ok h sendable.1 sendable.2 p41
    exact ⟨c', .ok hquery, hfacing, hcapabilities, hstatus⟩
  | set columns columnEof rows terminator =>
    obtain ⟨nonempty, hcount, hcolumns, hrows, ends⟩ := sendable
    simp only [Result.packets, resultSet, List.cons_append, List.append_assoc] at h
    obtain ⟨c₁, c₂, hquery, hdefinitions, hfacing₂, hcount₂, hcapabilities₂, -, -⟩ :=
      readDefinitions h nonempty hcount hcolumns
    obtain ⟨c₃, hvalues, hfacing₃, hend⟩ :=
      readRows hfacing₂ hrows (List.length_pos_of_ne_nil nonempty) hcount₂
    have hcapabilities₃ : c₃.capabilities = c.capabilities := by
      rcases hend with rfl | hend
      · exact hcapabilities₂
      · exact hend.capabilities.trans hcapabilities₂
    rw [← hcapabilities₃] at hfacing₃ ends p41 ⊢
    obtain ⟨c₄, c', hread, hfacing, hreach, hnoted, hstanding⟩ := readRow_terminator hfacing₃ ends
    rw [hreach.noting p41] at hstanding
    exact ⟨c', .set hquery hdefinitions hvalues hread, hfacing,
      hnoted.capabilities.trans hreach.capabilities, congrArg Prod.fst hstanding⟩

theorem readFailure {failure : Failure}
    (h : Facing alloc n c (failure.packets c.capabilities ++ ps) rest)
    (sendable : failure.Sendable) (p41 : has c.capabilities Capabilities.protocol41) :
    ∃ c', ReadFailure alloc c failure c' ∧
      c'.server_status = failure.statusBefore c.capabilities c.server_status := by
  cases failure with
  | atOnce error =>
    obtain ⟨c', hquery, -, hstatus⟩ := queryRecv_err h
    exact ⟨c', .atOnce hquery, hstatus⟩
  | inRows columns columnEof rows error =>
    obtain ⟨nonempty, hcount, hcolumns, hrows⟩ := sendable
    simp only [Failure.packets, List.cons_append, List.append_assoc] at h
    obtain ⟨c₁, c₂, hquery, hdefinitions, hfacing₂, hcount₂, hcapabilities₂, hstarted, hsame⟩ :=
      readDefinitions h nonempty hcount hcolumns
    obtain ⟨c₃, hvalues, hfacing₃, hend⟩ :=
      readRows hfacing₂ hrows (List.length_pos_of_ne_nil nonempty) hcount₂
    have hcapabilities₃ : c₃.capabilities = c.capabilities := by
      rcases hend with rfl | hend
      · exact hcapabilities₂
      · exact hend.capabilities.trans hcapabilities₂
    rw [← hcapabilities₃] at hfacing₃
    obtain ⟨c₄, c', hread, -, hreach, -, hstanding⟩ := readRow_err hfacing₃
    have hreach₂ : Reaches c₂ columnEof c₄ := by
      rcases hend with rfl | hend
      · exact hreach
      · exact hend.trans hreach
    have hat : c₂.AtRows ↔ has c.capabilities Capabilities.deprecateEof := by
      rw [AtRows, hstarted, hcapabilities₂]
      simp
    refine ⟨c', .inRows hquery hdefinitions hvalues hread, ?_⟩
    have hfirst := congrArg Prod.fst (hstanding.trans hreach₂.standing)
    rw [rowStanding, noting, hcapabilities₂, if_pos p41, hsame] at hfirst
    simp only [hat] at hfirst
    rw [Failure.statusBefore]
    refine hfirst.trans ?_
    split <;> rfl

/-- The bit is right all the way exactly when no error comes while it is set. -/
theorem tracked_iff {response : Response}
    (h : Facing alloc n c (response.packets c.capabilities) rest)
    (p41 : has c.capabilities Capabilities.protocol41)
    (wellFormed : response.WellFormed c.capabilities) :
    (∃ c', Tracked alloc c response c') ↔
      response.ErrorsClear c.capabilities c.server_status := by
  induction response generalizing c with
  | last result =>
    obtain ⟨sendable, hbit⟩ := wellFormed
    rw [Response.packets, ← List.append_nil (result.packets _)] at h
    obtain ⟨c', hread, -, -, hstatus⟩ := readResult h sendable p41
    refine iff_of_true ⟨c', .last hread fun hmore => hmore ?_⟩ trivial
    rw [hstatus, hbit]
  | failed failure =>
    rw [Response.packets, ← List.append_nil (failure.packets _)] at h
    obtain ⟨c', hread, hstatus⟩ := readFailure h wellFormed p41
    rw [Response.ErrorsClear, ← hstatus]
    constructor
    · rintro ⟨c'', htracked⟩
      cases htracked with
      | failed read bit =>
        obtain rfl := hread.unique read
        exact not_not.mp bit
    · exact fun hclear => ⟨c', .failed hread (not_not.mpr hclear)⟩
  | more result next ih =>
    obtain ⟨sendable, hbit, hnext⟩ := wellFormed
    obtain ⟨c₁, hread, hfacing, hcapabilities, hstatus⟩ := readResult h sendable p41
    rw [← hcapabilities] at hfacing p41 hnext
    have hiff := ih hfacing p41 hnext
    rw [hcapabilities, hstatus] at hiff
    rw [Response.ErrorsClear, ← hiff]
    constructor
    · rintro ⟨c', htracked⟩
      cases htracked with
      | more read bit rest =>
        obtain rfl := hread.unique read
        exact ⟨c', rest⟩
    · rintro ⟨c', htracked⟩
      exact ⟨c', .more hread (by rw [MoreResultsExist, hstatus]; exact hbit) htracked⟩

theorem plainReply_sendable (status : UInt16) (h : status &&& sessionStateChanged = 0)
    (capabilities : UInt32) :
    (plainReply status).Sendable capabilities ∧ (plainReply status).Trackable :=
  ⟨⟨fun hchanged => absurd h hchanged.2, by simp [plainReply]⟩,
    ⟨by simp [plainReply], by simp [plainReply], by simp [plainReply, OkReply.changeBytes]⟩⟩

/-- An OK packet, then a row. -/
def twoResults : Response :=
  .more (.ok (plainReply 0x000a)) (.last (.set [exampleColumn] ⟨0, 2⟩ [[none]] (plainReply 2)))

theorem tracked_iff_two :
    (∃ c', Tracked (fun _ => true)
        (answeringConn Capabilities.client (twoResults.packets Capabilities.client))
        twoResults c') ↔
      twoResults.ErrorsClear Capabilities.client 0 := by
  have h : Facing (fun _ => true) 100
      (answeringConn Capabilities.client (twoResults.packets Capabilities.client))
      (twoResults.packets Capabilities.client) [] :=
    facing_answering _ (by simp [twoResults, Response.packets, Result.packets]) (by decide)
      (by decide +kernel)
  refine tracked_iff h (by decide) ⟨plainReply_sendable _ (by decide) _, by decide, ?_, by decide⟩
  exact ⟨by simp, by decide, by simpa using exampleColumn_sendable, by simp [RowsOf, Sized],
    plainReply_terminates 2 (by decide) _⟩

def syntaxError : ErrReply where
  code := 1064
  marker := 0x23
  state := literal "42000"
  message := literal "syntax"
  state_length := rfl

/-- An OK packet that announces another result, then an error in its place. -/
def failedSecond : Response :=
  .more (.ok (plainReply 0x000a)) (.failed (.atOnce syntaxError))

/-- The bit stays set after the error. -/
theorem tracked_iff_fails :
    failedSecond.WellFormed Capabilities.client ∧
    ¬ ∃ c', Tracked (fun _ => true)
      (answeringConn Capabilities.client (failedSecond.packets Capabilities.client))
      failedSecond c' := by
  refine ⟨⟨plainReply_sendable _ (by decide) _, by decide, trivial⟩, ?_⟩
  rintro ⟨c', htracked⟩
  have h : Facing (fun _ => true) 100
      (answeringConn Capabilities.client (failedSecond.packets Capabilities.client))
      (failedSecond.packets Capabilities.client) [] :=
    facing_answering _ (by simp [failedSecond, Response.packets, Result.packets]) (by decide)
      (by decide +kernel)
  cases htracked with
  | more read bit rest =>
    obtain ⟨c₁, hread, hfacing, hcapabilities, hstatus⟩ :=
      readResult h (plainReply_sendable _ (by decide) _) (by decide)
    obtain rfl := hread.unique read
    cases rest with
    | failed read' bit' =>
      have hcapabilities : c₁.capabilities = Capabilities.client := hcapabilities
      have hfacing : Facing (fun _ => true) 100 c₁
          ((Failure.atOnce syntaxError).packets c₁.capabilities ++ []) [] := by
        rw [hcapabilities]
        exact hfacing
      obtain ⟨c₂, hread', hstatus'⟩ := readFailure hfacing trivial (by rw [hcapabilities]; decide)
      obtain rfl := hread'.unique read'
      refine bit' ?_
      rw [MoreResultsExist, hstatus', Failure.statusBefore, hstatus]
      decide

end Conn

end Trilogy
