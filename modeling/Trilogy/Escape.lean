import Trilogy.Sequence

namespace Trilogy

open Lib

/-- `TRILOGY_SERVER_STATUS_NO_BACKSLASH_ESCAPES` -/
def noBackslashEscapes : UInt16 := 0x0200

namespace Ascii

def quote : UInt8 := 0x27
def doubleQuote : UInt8 := 0x22
def backslash : UInt8 := 0x5c

end Ascii

open Ascii

namespace Buffer

section

variable (alloc : Alloc)

def putc (c : UInt8) : Proc Code Buffer Unit := do
  expand alloc 1
  modify (push [c])

def write (data : List UInt8) : Proc Code Buffer Unit := do
  expand alloc data.length
  modify (push data)

end

/-- From a buffer that holds no more than `room` bytes less than `n`, growth
succeeding up to `n`, `m` puts `data` behind its contents. -/
def Adds (alloc : Alloc) (n : Nat) (m : Proc Code Buffer Unit) (data : List UInt8) (room : Nat) :
    Prop :=
  ∀ b : Buffer, Grows alloc b.cap n → b.len + room ≤ n →
    ∃ b', m b = (.ok (), b') ∧ b'.bytes = b.bytes ++ data ∧ b.cap ≤ b'.cap

theorem adds_write (alloc : Alloc) {n room : Nat} {data : List UInt8} (h : data.length ≤ room) :
    Adds alloc n (write alloc data) data room := by
  intro b grow hroom
  have hexpand := grow b data.length (Nat.le_refl _) (by omega)
  obtain ⟨hbytes, -, hcap⟩ := expand_frame alloc data.length b
  refine ⟨(expand alloc data.length b).2.push data, ?_, ?_, hcap⟩
  · rw [write, Proc.bind_of_ok (Proc.ends hexpand)]
    rfl
  · rw [push_bytes, hbytes]

theorem adds_putc (alloc : Alloc) {n room : Nat} {c : UInt8} (h : 1 ≤ room) :
    Adds alloc n (putc alloc c) [c] room :=
  @adds_write alloc n room [c] h

theorem Adds.pure (alloc : Alloc) (n room : Nat) : Adds alloc n (Pure.pure ()) [] room :=
  fun b _ _ => ⟨b, rfl, (List.append_nil _).symm, Nat.le_refl _⟩

theorem Adds.bind {alloc : Alloc} {n room : Nat} {m : Proc Code Buffer Unit}
    {f : Unit → Proc Code Buffer Unit} {d e : List UInt8} (room' : Nat)
    (hm : Adds alloc n m d (d.length + room')) (hf : Adds alloc n (f ()) e room') (h : d.length + room' ≤ room) :
    Adds alloc n (m >>= f) (d ++ e) room := by
  intro b grow hroom
  obtain ⟨b₁, h₁, hbytes₁, hcap₁⟩ := hm b grow (by omega)
  have hlen : b₁.len = b.len + d.length := by rw [len, len, hbytes₁, List.length_append]
  obtain ⟨b₂, h₂, hbytes₂, hcap₂⟩ := hf b₁ (grow.mono hcap₁ (Nat.le_refl _)) (by omega)
  refine ⟨b₂, by rw [Proc.bind_of_ok h₁, h₂], ?_, hcap₁.trans hcap₂⟩
  rw [hbytes₂, hbytes₁, List.append_assoc]

end Buffer

/-- `escape_lookup_table`; 0 for a byte that stands for itself. -/
def escapeLookupTable (b : UInt8) : UInt8 :=
  if b = doubleQuote then doubleQuote
  else if b = 0x00 then 0x30
  else if b = quote then quote
  else if b = backslash then backslash
  else if b = 0x0a then 0x6e
  else if b = 0x0d then 0x72
  else if b = 26 then 0x5a
  else 0

theorem length_of_dropWhile {p : UInt8 → Bool} {cursor next : List UInt8} {b : UInt8}
    (h : cursor.dropWhile p = b :: next) : next.length < cursor.length := by
  have := (List.dropWhile_suffix (l := cursor) p).length_le
  rw [h] at this
  exact this

section

variable (alloc : Alloc)

/-- The loop for a server without backslash escapes; `memchr` finds the quotes. -/
def escapeQuotes (cursor : List UInt8) : Proc Code Buffer Unit :=
  match _h : cursor.dropWhile (· ≠ quote) with
  | _ :: next => do
    Buffer.write alloc (cursor.takeWhile (· ≠ quote))
    Buffer.write alloc [quote, quote]
    escapeQuotes next
  | [] => if cursor.length > 0 then Buffer.write alloc cursor else pure ()
termination_by cursor.length
decreasing_by exact length_of_dropWhile ‹_›

/-- The loop over the lookup table. -/
def escapeSpecials (cursor : List UInt8) : Proc Code Buffer Unit :=
  match _h : cursor.dropWhile (escapeLookupTable · = 0) with
  | special :: next => do
    Buffer.write alloc (cursor.takeWhile (escapeLookupTable · = 0))
    Buffer.putc alloc backslash
    Buffer.putc alloc (escapeLookupTable special)
    escapeSpecials next
  | [] => if cursor.length > 0 then Buffer.write alloc cursor else pure ()
termination_by cursor.length
decreasing_by exact length_of_dropWhile ‹_›

def Conn.onPacketBuffer (m : Proc Code Buffer Unit) : Proc Code Conn Unit :=
  Proc.zoom Conn.packet_buffer (fun packet_buffer conn => { conn with packet_buffer }) m

/-- `trilogy_escape`; the escaped string is the contents of the packet buffer. -/
def Conn.escape (str : List UInt8) : Proc Code Conn (List UInt8) := do
  let conn ← get
  onPacketBuffer (modify Buffer.reset)
  onPacketBuffer (Buffer.expand alloc str.length)
  (if conn.server_status &&& noBackslashEscapes != 0 then onPacketBuffer (escapeQuotes alloc str)
   else onPacketBuffer (escapeSpecials alloc str))
  let conn ← get
  pure conn.packet_buffer.bytes

end

def quotedByte (b : UInt8) : List UInt8 := if b = quote then [quote, quote] else [b]

def escapedByte (b : UInt8) : List UInt8 :=
  if escapeLookupTable b = 0 then [b] else [backslash, escapeLookupTable b]

/-- A run of bytes in front of one that is escaped. -/
theorem flatMap_run {p : UInt8 → Bool} {f : UInt8 → List UInt8} (hf : ∀ b, p b → f b = [b])
    (s : List UInt8) : s.flatMap f = s.takeWhile p ++ (s.dropWhile p).flatMap f := by
  induction s with
  | nil => rfl
  | cons b s ih =>
    by_cases hp : p b
    · rw [List.takeWhile_cons_of_pos hp, List.dropWhile_cons_of_pos hp, List.flatMap_cons, ih, hf b hp]
      rfl
    · rw [List.takeWhile_cons_of_neg hp, List.dropWhile_cons_of_neg hp, List.nil_append]

theorem head_of_dropWhile {p : UInt8 → Bool} {s next : List UInt8} {b : UInt8}
    (h : s.dropWhile p = b :: next) : ¬ p b := by
  have hne : s.dropWhile p ≠ [] := by simp [h]
  have := List.head_dropWhile_not p hne
  simpa [h] using this

theorem length_run {p : UInt8 → Bool} {s next : List UInt8} {b : UInt8}
    (h : s.dropWhile p = b :: next) : (s.takeWhile p).length + (next.length + 1) = s.length := by
  have := congrArg List.length (List.takeWhile_append_dropWhile (p := p) (l := s))
  rwa [List.length_append, h] at this

theorem adds_escapeQuotes (alloc : Alloc) (n : Nat) (s : List UInt8) :
    Buffer.Adds alloc n (escapeQuotes alloc s) (s.flatMap quotedByte) (2 * s.length) := by
  have hplain : ∀ b : UInt8, decide (b ≠ quote) → quotedByte b = [b] := fun b h =>
    if_neg (of_decide_eq_true h)
  induction s using escapeQuotes.induct with
  | case1 s b next h ih =>
    have hb : b = quote := not_not.mp fun hb => head_of_dropWhile h (decide_eq_true hb)
    have hlen := length_run h
    rw [flatMap_run hplain, h, List.flatMap_cons, hb, escapeQuotes, h]
    exact .bind (2 + 2 * next.length) (Buffer.adds_write _ (Nat.le_add_right _ _))
      (.bind (2 * next.length) (Buffer.adds_write _ (Nat.le_add_right _ _)) ih (Nat.le_refl _))
      (by omega)
  | case2 s h hpos =>
    rw [flatMap_run hplain, h, escapeQuotes, h]
    simp only [if_pos hpos, List.flatMap_nil, List.append_nil]
    have hall := List.takeWhile_append_dropWhile (p := fun b => decide (b ≠ quote)) (l := s)
    rw [h, List.append_nil] at hall
    rw [hall]
    exact Buffer.adds_write _ (by omega)
  | case3 s h hpos =>
    have := List.length_eq_zero_iff.mp (Nat.eq_zero_of_not_pos hpos)
    subst this
    rw [escapeQuotes]
    exact .pure _ _ _

theorem adds_escapeSpecials (alloc : Alloc) (n : Nat) (s : List UInt8) :
    Buffer.Adds alloc n (escapeSpecials alloc s) (s.flatMap escapedByte) (2 * s.length) := by
  have hplain : ∀ b : UInt8, decide (escapeLookupTable b = 0) → escapedByte b = [b] := fun b h =>
    if_pos (of_decide_eq_true h)
  induction s using escapeSpecials.induct with
  | case1 s special next h ih =>
    have hspecial : escapedByte special = [backslash] ++ [escapeLookupTable special] :=
      if_neg fun hs => head_of_dropWhile h (decide_eq_true hs)
    have hlen := length_run h
    rw [flatMap_run hplain, h, List.flatMap_cons, hspecial, escapeSpecials, h, List.append_assoc]
    exact .bind (2 + 2 * next.length) (Buffer.adds_write _ (Nat.le_add_right _ _))
      (.bind (1 + 2 * next.length) (Buffer.adds_putc _ (Nat.le_add_right _ _))
        (.bind (2 * next.length) (Buffer.adds_putc _ (Nat.le_add_right _ _)) ih (Nat.le_refl _))
        (by simp only [List.length_singleton]; omega))
      (by omega)
  | case2 s h hpos =>
    rw [flatMap_run hplain, h, escapeSpecials, h]
    simp only [if_pos hpos, List.flatMap_nil, List.append_nil]
    have hall := List.takeWhile_append_dropWhile (p := fun b => decide (escapeLookupTable b = 0))
      (l := s)
    rw [h, List.append_nil] at hall
    rw [hall]
    exact Buffer.adds_write _ (by omega)
  | case3 s h hpos =>
    have := List.length_eq_zero_iff.mp (Nat.eq_zero_of_not_pos hpos)
    subst this
    rw [escapeSpecials]
    exact .pure _ _ _

theorem Conn.onPacketBuffer_ok {m : Proc Code Buffer Unit} {conn : Conn} {b : Buffer}
    (h : m conn.packet_buffer = (.ok (), b)) :
    onPacketBuffer m conn = (.ok (), { conn with packet_buffer := b }) := by
  rw [onPacketBuffer, Proc.zoom_apply, h]

/-- The escaped string, when growth succeeds up to twice the length of the string. -/
theorem Conn.escape_ok {alloc : Alloc} {conn : Conn} {str : List UInt8}
    (grow : Buffer.Grows alloc conn.packet_buffer.cap (2 * str.length)) :
    ∃ conn', Conn.escape alloc str conn = (.ok (str.flatMap
      (if conn.server_status &&& noBackslashEscapes != 0 then quotedByte else escapedByte)),
        conn') := by
  have hadds : Buffer.Adds alloc (2 * str.length)
      (if conn.server_status &&& noBackslashEscapes != 0 then escapeQuotes alloc str
        else escapeSpecials alloc str)
      (str.flatMap
        (if conn.server_status &&& noBackslashEscapes != 0 then quotedByte else escapedByte))
      (2 * str.length) := by
    split
    · exact adds_escapeQuotes _ _ _
    · exact adds_escapeSpecials _ _ _
  have hexpand := grow conn.packet_buffer.reset str.length (Nat.le_refl _)
    (by simp only [Buffer.len, Buffer.reset_bytes, List.length_nil]; omega)
  obtain ⟨hbytes, -, hcap⟩ := Buffer.expand_frame alloc str.length conn.packet_buffer.reset
  have hends := Proc.ends hexpand
  generalize (Buffer.expand alloc str.length conn.packet_buffer.reset).2 = b at hbytes hcap hends
  obtain ⟨b', hrun, hbytes', -⟩ := hadds b (grow.mono hcap (Nat.le_refl _))
    (by rw [Buffer.len, hbytes, Buffer.reset_bytes]; simp)
  rw [hbytes, Buffer.reset_bytes, List.nil_append] at hbytes'
  refine ⟨{ conn with packet_buffer := b' }, ?_⟩
  rw [Conn.escape, Proc.get_bind, Proc.bind_of_ok (Conn.onPacketBuffer_ok (Proc.modify_apply Buffer.reset _)),
    Proc.bind_of_ok (Conn.onPacketBuffer_ok hends), ← hbytes']
  split
  · rename_i h
    rw [if_pos h] at hrun
    exact Proc.bind_of_ok (Conn.onPacketBuffer_ok hrun)
  · rename_i h
    rw [if_neg h] at hrun
    exact Proc.bind_of_ok (Conn.onPacketBuffer_ok hrun)

/-- What a backslash and the byte behind it stand for. -/
def unescape (b : UInt8) : List UInt8 :=
  if b = 0x30 then [0x00]
  else if b = 0x6e then [0x0a]
  else if b = 0x72 then [0x0d]
  else if b = 0x5a then [26]
  else if b = 0x62 then [0x08]
  else if b = 0x74 then [0x09]
  else if b = 0x25 then [backslash, 0x25]
  else if b = 0x5f then [backslash, 0x5f]
  else [b]

/-- The value of a literal from behind its opening quote `q`, and what follows
the closing one; `escapes` is off for a server without backslash escapes. -/
def readLiteral (escapes : Bool) (q : UInt8) : List UInt8 → Option (List UInt8 × List UInt8)
  | [] => none
  | [b] => if b = q then some ([], []) else none
  | b :: c :: rest =>
    if escapes ∧ b = backslash then
      (readLiteral escapes q rest).map fun r => (unescape c ++ r.1, r.2)
    else if b = q then
      if c = q then (readLiteral escapes q rest).map fun r => (q :: r.1, r.2)
      else some ([], c :: rest)
    else (readLiteral escapes q (c :: rest)).map fun r => (b :: r.1, r.2)

/-- A literal starts with its quote. -/
def lexLiteral (escapes : Bool) : List UInt8 → Option (List UInt8 × List UInt8)
  | [] => none
  | q :: rest => readLiteral escapes q rest

theorem readLiteral_end {escapes : Bool} {q : UInt8} (hq : q ≠ backslash) {t : List UInt8}
    (ht : t.head? ≠ some q) : readLiteral escapes q (q :: t) = some ([], t) := by
  cases t with
  | nil => simp [readLiteral]
  | cons c t =>
    have hc : c ≠ q := fun h => ht (by rw [h]; rfl)
    simp [readLiteral, hq, hc]

theorem readLiteral_plain {escapes : Bool} {q b : UInt8} {rest : List UInt8} (hrest : rest ≠ [])
    (hb : ¬ (escapes ∧ b = backslash)) (hq : b ≠ q) :
    readLiteral escapes q (b :: rest) =
      (readLiteral escapes q rest).map fun r => (b :: r.1, r.2) := by
  obtain ⟨c, rest, rfl⟩ := List.exists_cons_of_ne_nil hrest
  rw [readLiteral, if_neg hb, if_neg hq]

theorem readLiteral_quoted {q : UInt8} {rest : List UInt8} {escapes : Bool} (hq : q ≠ backslash) :
    readLiteral escapes q (q :: q :: rest) =
      (readLiteral escapes q rest).map fun r => (q :: r.1, r.2) := by
  rw [readLiteral, if_neg (fun h => hq h.2), if_pos rfl, if_pos rfl]

theorem readLiteral_escaped {q c : UInt8} {rest : List UInt8} :
    readLiteral true q (backslash :: c :: rest) =
      (readLiteral true q rest).map fun r => (unescape c ++ r.1, r.2) := by
  rw [readLiteral, if_pos ⟨rfl, rfl⟩]

/-- The table gives the byte that the server turns back. -/
theorem unescape_table {b : UInt8} (h : escapeLookupTable b ≠ 0) :
    unescape (escapeLookupTable b) = [b] := by
  unfold escapeLookupTable at h ⊢
  split_ifs at h ⊢
  case neg => exact absurd rfl h
  all_goals subst b; rfl

/-- A byte that stands for itself is neither a backslash nor a quote. -/
theorem plain_of_table {b : UInt8} (h : escapeLookupTable b = 0) :
    b ≠ backslash ∧ b ≠ quote ∧ b ≠ doubleQuote := by
  refine ⟨?_, ?_, ?_⟩ <;> rintro rfl <;> exact absurd h (by decide)

theorem readLiteral_specials {q : UInt8} (hq : q = quote ∨ q = doubleQuote) {t : List UInt8}
    (ht : t.head? ≠ some q) (s : List UInt8) :
    readLiteral true q (s.flatMap escapedByte ++ q :: t) = some (s, t) := by
  have hback : q ≠ backslash := by rcases hq with rfl | rfl <;> decide
  induction s with
  | nil => exact readLiteral_end hback ht
  | cons b s ih =>
    rw [List.flatMap_cons, List.append_assoc, escapedByte]
    split
    · rename_i hb
      obtain ⟨hne, hquote, hdouble⟩ := plain_of_table hb
      have hbq : b ≠ q := by rcases hq with rfl | rfl <;> assumption
      rw [List.singleton_append, readLiteral_plain (by simp) (by simp [hne]) hbq, ih]
      rfl
    · rename_i hb
      rw [List.cons_append, List.singleton_append, readLiteral_escaped, ih, unescape_table hb]
      rfl

theorem readLiteral_quotes {t : List UInt8} (ht : t.head? ≠ some quote) (s : List UInt8) :
    readLiteral false quote (s.flatMap quotedByte ++ quote :: t) = some (s, t) := by
  have hback : quote ≠ backslash := by decide
  induction s with
  | nil => exact readLiteral_end hback ht
  | cons b s ih =>
    rw [List.flatMap_cons, List.append_assoc, quotedByte]
    split
    · rename_i hb
      rw [List.cons_append, List.singleton_append, readLiteral_quoted hback, ih, hb]
      rfl
    · rename_i hb
      rw [List.singleton_append, readLiteral_plain (by simp) (by simp) hb, ih]
      rfl

/-- The literal made of the escaped string is read as the string, and nothing
behind it is swallowed. -/
theorem escape_lossless {alloc : Alloc} {conn : Conn} {s : List UInt8}
    (grow : Buffer.Grows alloc conn.packet_buffer.cap (2 * s.length)) :
    ∃ e conn', Conn.escape alloc s conn = (.ok e, conn') ∧
      (conn.server_status &&& noBackslashEscapes = 0 → ∀ q, q = quote ∨ q = doubleQuote →
        ∀ t, t.head? ≠ some q → lexLiteral true (q :: (e ++ q :: t)) = some (s, t)) ∧
      (conn.server_status &&& noBackslashEscapes ≠ 0 →
        ∀ t, t.head? ≠ some quote → lexLiteral false (quote :: (e ++ quote :: t)) = some (s, t)) := by
  obtain ⟨conn', h⟩ := Conn.escape_ok grow
  refine ⟨_, conn', h, fun hmode q hq t ht => ?_, fun hmode t ht => ?_⟩
  · rw [if_neg (by simp [hmode])]
    exact readLiteral_specials hq ht s
  · rw [if_pos (by simpa using hmode)]
    exact readLiteral_quotes ht s

theorem escape_lossless_quote :
    ∃ e conn', Conn.escape (fun _ => true) [quote, 0x0a] (Conn.init idleSock) = (.ok e, conn') ∧
      ((0 : UInt16) &&& noBackslashEscapes = 0 → ∀ q, q = quote ∨ q = doubleQuote →
        ∀ t, t.head? ≠ some q → lexLiteral true (q :: (e ++ q :: t)) = some ([quote, 0x0a], t)) ∧
      ((0 : UInt16) &&& noBackslashEscapes ≠ 0 → ∀ t, t.head? ≠ some quote →
        lexLiteral false (quote :: (e ++ quote :: t)) = some ([quote, 0x0a], t)) :=
  escape_lossless (Buffer.grows_of_alloc (fun _ => rfl) _ (by decide))

end Trilogy
