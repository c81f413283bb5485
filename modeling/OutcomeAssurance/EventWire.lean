import OutcomeAssurance.JsonReader
import OutcomeAssurance.PyText

/-! # Events on the wire

    A response of the streaming endpoint is text: events framed in lines, and
    comments that keep the connection alive between them.  Its readers cut the
    lines, and take the payload of each `data:` line with `json.loads`.  They
    read what was sent, whatever text the model's tokens are. -/

namespace EventWire

open JsonReader PyText Streaming TraceChain

/-! ## Lines -/

/-- Where `str.splitlines` cuts. -/
def isLineEnd (c : Char) : Bool :=
  c.toNat ∈ [0x0a, 0x0b, 0x0c, 0x0d, 0x1c, 0x1d, 0x1e, 0x85, 0x2028, 0x2029]

/-- The first line goes on in front. -/
def extend (c : Char) : List (List Char) → List (List Char)
  | [] => [[c]]
  | line :: lines => (c :: line) :: lines

def splitLines : List Char → List (List Char)
  | [] => []
  | '\r' :: '\n' :: rest => [] :: splitLines rest
  | c :: rest => if isLineEnd c then [] :: splitLines rest else extend c (splitLines rest)

/-- `s.splitlines()`. -/
def lines (s : String) : List String := (splitLines s.toList).map String.ofList

/-- What follows the prefix, of a text that has it. -/
def cutPrefix (pre line : String) : Option String :=
  if pre.toList <+: line.toList then some (String.ofList (line.toList.drop pre.length)) else none

/-! ## The reader of the tests -/

/-- The loop of `_parse_sse` from one line on; there is no result where
    `json.loads` raises. -/
def parseFrom : Option String → List String → Option (List (String × Json))
  | _, [] => some []
  | eventType, line :: rest =>
      match cutPrefix "event:" line with
      | some name => parseFrom (some (strip name)) rest
      | none =>
          match cutPrefix "data:" line, eventType with
          | some text, some name =>
              match loads (strip text) with
              | none => none
              | some payload => (parseFrom none rest).map fun found => (name, payload) :: found
          | _, _ => parseFrom eventType rest

def parseSse (text : String) : Option (List (String × Json)) := parseFrom none (lines text)

/-! ## The wire -/

/-- What the response's iterator hands over: an event, or a comment that keeps
    the connection alive. -/
inductive Chunk where
  | event (e : SseEvent)
  | ping (comment : String) (h : Printable comment.toList)

def sent (chunks : List Chunk) : List SseEvent :=
  chunks.filterMap fun
    | .event e => some e
    | .ping .. => none

/-- What `sse_starlette` writes for a chunk: an event whose name and data are
    one line each, and a comment, end with an empty line. -/
structure Frames (write : Chunk → String) : Prop where
  event : ∀ e : SseEvent, Printable e.data.toList →
    write (.event e) = "event: " ++ e.event ++ "\r\n" ++ "data: " ++ e.data ++ "\r\n\r\n"
  ping : ∀ comment h, write (.ping comment h) = ": " ++ comment ++ "\r\n\r\n"

/-- The text of a response. -/
def body (write : Chunk → String) (chunks : List Chunk) : String :=
  String.join (chunks.map write)

/-- The payload of an event. -/
def fields : SseEvent → List (String × Json)
  | .token t => [("token", .str t)]
  | .error requestId reason => [("request_id", .str requestId), ("reason", .str reason)]
  | .done requestId info tokensEmitted => [
      ("request_id", .str requestId),
      ("model_name", .str info.modelName),
      ("model_version", .str info.modelVersion),
      ("checkpoint_id", .str info.checkpointId),
      ("tokens_emitted", .int tokensEmitted)]

theorem data_eq (e : SseEvent) : e.data = dumpsObject (fields e) := by
  cases e <;> rfl

theorem plain_fields (e : SseEvent) : ∀ p ∈ fields e, Plain p.2 := by
  cases e <;> simp [fields, Plain]

theorem nodup_fields (e : SseEvent) : ((fields e).map Prod.fst).Nodup := by
  cases e <;> simp [fields]

theorem printable_data (e : SseEvent) : Printable e.data.toList := by
  rw [data_eq]
  exact printable_dumpsObject (plain_fields e)

theorem loads_data (e : SseEvent) : loads e.data = some (.obj (fields e)) := by
  rw [data_eq]
  exact loads_dumpsObject (nodup_fields e) (plain_fields e)

theorem mem_names (e : SseEvent) : e.event ∈ ["token", "error", "done"] := by
  cases e <;> simp [SseEvent.event]

theorem printable_event (e : SseEvent) : Printable ("event: " ++ e.event).toList := by
  have hall : ∀ name ∈ ["token", "error", "done"], Printable ("event: " ++ name).toList := by
    decide
  exact hall _ (mem_names e)

/-! ## Cutting the lines -/

theorem not_lineEnd {c : Char} (h : 0x20 ≤ c.toNat ∧ c.toNat ≤ 0x7e) : isLineEnd c = false := by
  rw [isLineEnd, decide_eq_false_iff_not]
  simp only [List.mem_cons, List.not_mem_nil, or_false]
  omega

theorem splitLines_cons {c : Char} (hc : isLineEnd c = false) (rest : List Char) :
    splitLines (c :: rest) = extend c (splitLines rest) := by
  have hreturn : c ≠ '\r' := by
    rintro rfl
    exact absurd hc (by decide)
  rw [splitLines]
  · rw [hc]
    rfl
  · exact fun _ h _ => hreturn h

/-- A line is cut off at its end. -/
theorem splitLines_line {line : List Char} (hline : Printable line) (rest : List Char) :
    splitLines (line ++ '\r' :: '\n' :: rest) = line :: splitLines rest := by
  induction line with
  | nil => rfl
  | cons c line ih =>
      have hc : isLineEnd c = false := not_lineEnd (hline c List.mem_cons_self)
      rw [List.cons_append, splitLines_cons hc, ih fun d hd => hline d (List.mem_cons_of_mem _ hd)]
      rfl

/-- The lines of a chunk. -/
def written : Chunk → List String
  | .event e => ["event: " ++ e.event, "data: " ++ e.data, ""]
  | .ping comment _ => [": " ++ comment, ""]

variable {write : Chunk → String}

theorem splitLines_write (hwrite : Frames write) (chunk : Chunk) (rest : List Char) :
    splitLines ((write chunk).toList ++ rest) =
      (written chunk).map String.toList ++ splitLines rest := by
  cases chunk with
  | event e =>
      have hname : Printable ("event: " ++ e.event).toList := printable_event e
      have hdata : Printable ("data: " ++ e.data).toList := by
        rw [String.toList_append]
        exact Printable.append (by decide) (printable_data e)
      have htext : (write (.event e)).toList ++ rest = ("event: " ++ e.event).toList ++
          '\r' :: '\n' :: (("data: " ++ e.data).toList ++ '\r' :: '\n' :: '\r' :: '\n' :: rest) := by
        rw [hwrite.event e (printable_data e)]
        simp only [String.toList_append, List.append_assoc]
        rfl
      rw [htext, splitLines_line hname, splitLines_line hdata]
      rfl
  | ping comment h =>
      have hline : Printable (": " ++ comment).toList := by
        rw [String.toList_append]
        exact Printable.append (by decide) h
      have htext : (write (.ping comment h)).toList ++ rest =
          (": " ++ comment).toList ++ '\r' :: '\n' :: '\r' :: '\n' :: rest := by
        rw [hwrite.ping]
        simp only [String.toList_append, List.append_assoc]
        rfl
      rw [htext, splitLines_line hline]
      rfl

/-- **THE LINES** of a response are those of its chunks. -/
theorem lines_body (hwrite : Frames write) (chunks : List Chunk) :
    lines (body write chunks) = chunks.flatMap written := by
  have hsplit : splitLines (body write chunks).toList =
      (chunks.flatMap written).map String.toList := by
    rw [body, String.toList_join, List.flatMap_map]
    induction chunks with
    | nil => rfl
    | cons chunk chunks ih =>
        rw [List.flatMap_cons, splitLines_write hwrite, ih, List.flatMap_cons, List.map_append]
  rw [lines, hsplit, List.map_map]
  exact List.map_id'' (fun s => String.ofList_toList) _

/-! ## Reading the events back -/

theorem cutPrefix_append (pre x : String) : cutPrefix pre (pre ++ x) = some x := by
  have hprefix : pre.toList <+: (pre ++ x).toList := by
    rw [String.toList_append]
    exact List.prefix_append _ _
  rw [cutPrefix, if_pos hprefix, String.toList_append, ← String.length_toList,
    List.drop_left, String.ofList_toList]

/-- A line that begins with another character. -/
theorem cutPrefix_eq_none {pre line : String} (c d : Char) {cs ds : List Char}
    (hpre : pre.toList = c :: cs) (hline : line.toList = d :: ds) (hne : c ≠ d) :
    cutPrefix pre line = none := by
  rw [cutPrefix, if_neg]
  rw [hpre, hline]
  exact fun h => hne (List.cons_prefix_cons.mp h).1

theorem cut_event (x : String) : cutPrefix "event:" ("event: " ++ x) = some (" " ++ x) := by
  have htext : "event: " ++ x = "event:" ++ (" " ++ x) := by
    rw [← String.append_assoc]
    rfl
  rw [htext, cutPrefix_append]

theorem cut_data (x : String) : cutPrefix "data:" ("data: " ++ x) = some (" " ++ x) := by
  have htext : "data: " ++ x = "data:" ++ (" " ++ x) := by
    rw [← String.append_assoc]
    rfl
  rw [htext, cutPrefix_append]

theorem strip_name (e : SseEvent) : strip (" " ++ e.event) = e.event := by
  have hall : ∀ name ∈ ["token", "error", "done"], strip (" " ++ name) = name := by decide
  exact hall _ (mem_names e)

theorem strip_data (e : SseEvent) : strip (" " ++ e.data) = e.data := by
  have hopen : isSpace '\x7b' = false := by decide
  have hclose : isSpace '\x7d' = false := by decide
  have hshape : e.data.toList = '\x7b' :: (membersText (fields e) ++ ['\x7d']) := by
    rw [data_eq, dumpsObject_toList]
  have hdropped : (" " ++ e.data).toList.dropWhile isSpace = e.data.toList := by
    rw [String.toList_append, hshape]
    show List.dropWhile isSpace ('\x7b' :: _) = _
    rw [List.dropWhile_cons, hopen]
    rfl
  have hreversed : e.data.toList.reverse.dropWhile isSpace = e.data.toList.reverse := by
    rw [hshape, ← List.cons_append, List.reverse_concat, List.dropWhile_cons, hclose]
    rfl
  rw [strip, hdropped, hreversed, List.reverse_reverse, String.ofList_toList]

theorem cut_event_of_data (x : String) : cutPrefix "event:" ("data: " ++ x) = none :=
  cutPrefix_eq_none 'e' 'd' rfl (String.toList_append ..) (by decide)

theorem cut_data_of_event (x : String) : cutPrefix "data:" ("event: " ++ x) = none :=
  cutPrefix_eq_none 'd' 'e' rfl (String.toList_append ..) (by decide)

theorem cut_event_of_comment (x : String) : cutPrefix "event:" (": " ++ x) = none :=
  cutPrefix_eq_none 'e' ':' rfl (String.toList_append ..) (by decide)

theorem cut_data_of_comment (x : String) : cutPrefix "data:" (": " ++ x) = none :=
  cutPrefix_eq_none 'd' ':' rfl (String.toList_append ..) (by decide)

theorem parseFrom_idle {line : String} (hevent : cutPrefix "event:" line = none)
    (hdata : cutPrefix "data:" line = none) (eventType : Option String) (rest : List String) :
    parseFrom eventType (line :: rest) = parseFrom eventType rest := by
  cases eventType <;> simp only [parseFrom, hevent, hdata]

theorem parseFrom_empty (eventType : Option String) (rest : List String) :
    parseFrom eventType ("" :: rest) = parseFrom eventType rest :=
  parseFrom_idle (by decide) (by decide) eventType rest

theorem parseFrom_name (e : SseEvent) (eventType : Option String) (rest : List String) :
    parseFrom eventType (("event: " ++ e.event) :: rest) = parseFrom (some e.event) rest := by
  simp only [parseFrom, cut_event, strip_name]

theorem parseFrom_data (e : SseEvent) (name : String) (rest : List String) :
    parseFrom (some name) (("data: " ++ e.data) :: rest) =
      (parseFrom none rest).map fun found => (name, .obj (fields e)) :: found := by
  simp only [parseFrom, cut_event_of_data, cut_data, strip_data, loads_data]

theorem parseFrom_chunks (chunks : List Chunk) :
    parseFrom none (chunks.flatMap written) =
      some ((sent chunks).map fun e => (e.event, .obj (fields e))) := by
  induction chunks with
  | nil => rfl
  | cons chunk chunks ih =>
      cases chunk with
      | event e =>
          show parseFrom none (_ :: _ :: _ :: chunks.flatMap written) = _
          rw [parseFrom_name, parseFrom_data, parseFrom_empty, ih]
          rfl
      | ping comment h =>
          show parseFrom none (_ :: _ :: chunks.flatMap written) = _
          rw [parseFrom_idle (cut_event_of_comment comment) (cut_data_of_comment comment),
            parseFrom_empty, ih]
          rfl

/-- **NO TOKEN BREAKS THE STREAM**: whatever text the tokens are, and wherever
    comments keep the connection alive, the events that were sent are read back
    from the response, and nothing else. -/
theorem parse_body (hwrite : Frames write) (chunks : List Chunk) :
    parseSse (body write chunks) =
      some ((sent chunks).map fun e => (e.event, .obj (fields e))) := by
  rw [parseSse, lines_body hwrite, parseFrom_chunks]

/-- Events and comments as the server sends them. -/
def writeChunk : Chunk → String
  | .event e => "event: " ++ e.event ++ "\r\n" ++ "data: " ++ e.data ++ "\r\n\r\n"
  | .ping comment _ => ": " ++ comment ++ "\r\n\r\n"

theorem frames_writeChunk : Frames writeChunk := ⟨fun _ _ => rfl, fun _ _ => rfl⟩

/-- A token that looks like the end of the stream is read as a token. -/
theorem forged_done_read :
    let forged := "x\r\n\r\nevent: done\r\ndata: \x7b\x7d\r\n\r\n"
    parseSse (body writeChunk [.event (.token forged), .ping "ping" (by decide),
      .event (.error "REQ-1" "TIMEOUT")]) = some [("token", .obj [("token", .str forged)]),
        ("error", .obj [("request_id", .str "REQ-1"), ("reason", .str "TIMEOUT")])] :=
  parse_body frames_writeChunk _

end EventWire
