-- A transcript as Markdown: what an agent said is written with backslashes, so
-- that no line of it should open a block of its own.
import Multiplex.Domain.ControllerDevices

namespace multiplex_domain.transcript

open controller_devices (is_control)

def MAX_TRANSCRIPT_RECORD_BYTES : Nat := 1024 * 1024

inductive TranscriptKind where
  | User
  | Assistant
  | Reasoning
  | ToolCall
  | ToolResult
  | Diff
  | Plan
  | Metadata

def TranscriptKind.label : TranscriptKind → String
  | .User => "User"
  | .Assistant => "Assistant"
  | .Reasoning => "Reasoning"
  | .ToolCall => "Tool call"
  | .ToolResult => "Tool result"
  | .Diff => "Diff"
  | .Plan => "Plan"
  | .Metadata => "Metadata"

inductive TranscriptError where
  | InvalidContent
  | RecordTooLarge

def unprintable (c : Char) : Bool := is_control c ∧ c ≠ '\n' ∧ c ≠ '\t'

structure TranscriptContent where
  value : List Char
  fits : ¬ MAX_TRANSCRIPT_RECORD_BYTES < (String.ofList value).utf8ByteSize
  printable : ¬ value.any unprintable

def TranscriptContent.new (value : List Char) : Except TranscriptError TranscriptContent :=
  if fits : MAX_TRANSCRIPT_RECORD_BYTES < (String.ofList value).utf8ByteSize then
    .error .RecordTooLarge
  else if printable : value.any unprintable then .error .InvalidContent
  else .ok { value, fits, printable }

structure TranscriptEntry where
  kind : TranscriptKind
  content : TranscriptContent

/-! ## Rendering -/

def special : List Char :=
  ['\\', '\x60', '*', '_', '{', '}', '[', ']', '(', ')', '<', '>', '#', '+', '-', '.', '!', '|']

def escaped (c : Char) : List Char := if c ∈ special then ['\\', c] else [c]

def escape_markdown_text (value : List Char) : List Char := value.flatMap escaped

def heading (entry : TranscriptEntry) : List Char :=
  "## ".toList ++ escape_markdown_text entry.kind.label.toList

def render_transcript_entry_markdown (entry : TranscriptEntry) : List Char :=
  heading entry ++ "\n\n".toList ++ escape_markdown_text entry.content.value ++ "\n\n".toList

/-- A text without the backslashes that were added to it. -/
def unescape : List Char → List Char
  | '\\' :: c :: rest => c :: unescape rest
  | c :: rest => c :: unescape rest
  | [] => []

/-! ## Blocks -/

/-- Of the line endings of Markdown a content holds only this one. -/
def lines (text : List Char) : List (List Char) := text.splitOn '\n'

def blank (c : Char) : Bool := c = ' ' ∨ c = '\t'

/-- A fence of tildes, or what makes a heading of the lines above it. -/
def tildes_or_equals (text : List Char) : Bool :=
  3 ≤ (text.takeWhile (· = '~')).length ∨
    0 < (text.takeWhile (· = '=')).length ∧
      ((text.dropWhile (· = '=')).dropWhile blank).isEmpty

def numbered (text : List Char) : Bool :=
  let digits := (text.takeWhile Char.isDigit).length
  let rest := text.dropWhile Char.isDigit
  0 < digits ∧ digits ≤ 9 ∧ rest.head?.any (· ∈ ['.', ')']) ∧ rest.tail.head?.all blank

/-- A heading, a quote, raw HTML, an item, a break, an underline or a fence of backticks that
starts with this mark. -/
def marked (text : List Char) (mark : Char) : Bool :=
  let rest := text.dropWhile (· = mark)
  let marks := (text.takeWhile (· = mark)).length
  mark = '#' ∧ marks ≤ 6 ∧ rest.head?.all blank ∨
    mark = '>' ∨ mark = '<' ∨
    mark ∈ ['-', '+', '*'] ∧ text.tail.head?.all blank ∨
    mark ∈ ['*', '-', '_'] ∧ 3 ≤ text.count mark ∧ text.all (fun c => c = mark ∨ blank c) ∨
    mark = '-' ∧ rest.all blank ∨
    mark = '\x60' ∧ 3 ≤ marks

def unindented (block : List Char → Bool) (line : List Char) : Bool :=
  (line.takeWhile (· = ' ')).length ≤ 3 ∧ block (line.dropWhile (· = ' '))

def opens (line : List Char) : Bool :=
  unindented (fun text => text.head?.any (marked text) ∨ numbered text ∨ tildes_or_equals text) line

/-! ## What escaping keeps -/

theorem unescape_cons {c : Char} (rest : List Char) (h : c ≠ '\\') :
    unescape (c :: rest) = c :: unescape rest := by
  rw [unescape]
  exact fun _ _ hc => absurd hc h

theorem escape_cons (c : Char) (text : List Char) :
    c ∈ special ∧ escape_markdown_text (c :: text) = '\\' :: c :: escape_markdown_text text ∨
    c ∉ special ∧ escape_markdown_text (c :: text) = c :: escape_markdown_text text := by
  rw [escape_markdown_text, List.flatMap_cons, escaped]
  split <;> simp_all [escape_markdown_text]

theorem unescape_escape (value rest : List Char) :
    unescape (escape_markdown_text value ++ rest) = value ++ unescape rest := by
  induction value with
  | nil => rfl
  | cons c value ih =>
    obtain ⟨-, h⟩ | ⟨hc, h⟩ := escape_cons c value
    · simp [h, unescape, ih]
    · have hslash : c ≠ '\\' := fun h => hc (h ▸ by decide)
      simp [h, unescape_cons _ hslash, ih]

theorem lines_escape (value : List Char) :
    lines (escape_markdown_text value) = (lines value).map escape_markdown_text := by
  unfold lines
  induction value with
  | nil => rfl
  | cons c value ih =>
    have hcons (c : Char) (text : List Char) :
        escape_markdown_text (c :: text) = escaped c ++ escape_markdown_text text := rfl
    rw [hcons, escaped, List.splitOn_cons_eq_if_modifyHead]
    split
    · have hc' : c ≠ '\n' := by rintro rfl; contradiction
      simp only [List.cons_append, List.nil_append, List.splitOn_cons_eq_if_modifyHead, ih]
      cases value.splitOn '\n' <;> simp [escaped, *]
    · have hnil : escape_markdown_text [] = [] := rfl
      rw [List.singleton_append, List.splitOn_cons_eq_if_modifyHead, ih]
      cases value.splitOn '\n' <;> split <;> simp [escaped, *]

theorem while_escape {p : Char → Bool} (hp : special.any p = false) (text : List Char) :
    (escape_markdown_text text).takeWhile p = text.takeWhile p ∧
    (escape_markdown_text text).dropWhile p = escape_markdown_text (text.dropWhile p) := by
  rw [List.any_eq_false] at hp
  have hslash := hp '\\' (by decide)
  induction text with
  | nil => exact ⟨rfl, rfl⟩
  | cons c text ih =>
    obtain ⟨hc, h⟩ | ⟨-, h⟩ := escape_cons c text
    · simp [h, hp c hc, hslash]
    · simp only [h, List.takeWhile_cons, List.dropWhile_cons, ih]
      split <;> simp [h]

theorem any_head_escape {p : Char → Bool} (hslash : p '\\' = false)
    (hp : ∀ c ∉ special, p c = false) (text : List Char) :
    (escape_markdown_text text).head?.any p = false := by
  cases text with
  | nil => rfl
  | cons c text => obtain ⟨-, h⟩ | ⟨hc, h⟩ := escape_cons c text <;> simp [*]

theorem escape_isEmpty (text : List Char) : (escape_markdown_text text).isEmpty = text.isEmpty := by
  cases text with
  | nil => rfl
  | cons c text => obtain ⟨-, h⟩ | ⟨-, h⟩ := escape_cons c text <;> simp [h]

theorem opens_escape (line : List Char) :
    opens (escape_markdown_text line) = unindented tildes_or_equals line := by
  have hspace := while_escape (p := (· = ' ')) rfl line
  simp only [opens, unindented, hspace]
  generalize line.dropWhile (· = ' ') = text
  have hdigits := while_escape (p := Char.isDigit) rfl text
  have htildes := while_escape (p := (· = '~')) rfl text
  have hequals := while_escape (p := (· = '=')) rfl text
  have hblank := while_escape (p := blank) rfl (text.dropWhile (· = '='))
  have hmarked := any_head_escape (p := marked (escape_markdown_text text)) (by simp [marked])
    (fun c hc => by simp [special] at hc; simp [marked, hc]) text
  have hnumbered : numbered (escape_markdown_text text) = false := by
    have h := any_head_escape (p := (· ∈ ['.', ')'])) (by decide) (by simp +contextual [special])
      (text.dropWhile Char.isDigit)
    simp only [numbered, hdigits, h]
    simp
  simp only [hmarked, hnumbered, tildes_or_equals, htildes, hequals, hblank, escape_isEmpty]
  simp

theorem opens_lines_escape (value : List Char) :
    (∀ line ∈ lines (escape_markdown_text value), opens line = false) ↔
      ∀ line ∈ lines value, unindented tildes_or_equals line = false := by
  simp [lines_escape, opens_escape]

/-! ## Rendered entries -/

theorem heading_line (entry : TranscriptEntry) :
    opens (heading entry) = true ∧ '\n' ∉ heading entry := by
  obtain ⟨kind, -⟩ := entry
  cases kind <;> simp [heading, TranscriptKind.label] <;> decide

theorem lines_rendered (entry : TranscriptEntry) (rest : List Char) :
    lines (render_transcript_entry_markdown entry ++ rest) =
      heading entry :: [] :: lines (escape_markdown_text entry.content.value) ++ [] :: lines rest := by
  have h : render_transcript_entry_markdown entry ++ rest = heading entry ++ '\n' :: ([] ++ '\n' ::
      (escape_markdown_text entry.content.value ++ '\n' :: ([] ++ '\n' :: rest))) := by
    simp [render_transcript_entry_markdown]
  simp only [lines, h, List.splitOn_append_cons_self,
    List.splitOn_eq_singleton (heading_line entry).2, List.splitOn_nil]
  simp

theorem filter_opens_rendered {entries : List TranscriptEntry}
    (h : ∀ entry ∈ entries, ∀ line ∈ lines (escape_markdown_text entry.content.value),
      opens line = false) :
    (lines (entries.flatMap render_transcript_entry_markdown)).filter opens =
      entries.map heading := by
  have hblank : opens [] = false := rfl
  induction entries with
  | nil => rfl
  | cons entry entries ih =>
    have hentry : (lines (escape_markdown_text entry.content.value)).filter opens = [] :=
      List.filter_eq_nil_iff.mpr fun line hline => by simp [h entry (by simp) line hline]
    rw [List.flatMap_cons, lines_rendered]
    simp [heading_line, hblank, hentry, ih fun e he => h e (by simp [he])]

/-- Without their backslashes the entries are as they were, and their headings alone open a
block, as long as no content holds a fence of tildes or an underline of `=`. -/
theorem rendered_entries_are_apart (entries : List TranscriptEntry) :
    ((∀ entry ∈ entries,
        unescape (render_transcript_entry_markdown entry) = "## ".toList ++
          entry.kind.label.toList ++ "\n\n".toList ++ entry.content.value ++ "\n\n".toList ∧
        ∀ line ∈ lines (escape_markdown_text entry.content.value), opens line = false) ∧
      (lines (entries.flatMap render_transcript_entry_markdown)).filter opens =
        entries.map heading) ↔
    ∀ entry ∈ entries, ∀ line ∈ lines entry.content.value,
      unindented tildes_or_equals line = false := by
  constructor
  · intro h entry hentry
    exact (opens_lines_escape _).mp (h.1 entry hentry).2
  · intro h
    have hopens (entry) (hentry : entry ∈ entries) :=
      (opens_lines_escape _).mpr (h entry hentry)
    refine ⟨fun entry hentry => ⟨?_, hopens entry hentry⟩, filter_opens_rendered hopens⟩
    simp [render_transcript_entry_markdown, heading, unescape, unescape_escape]

/-- A content with a heading of its own, and a fence that takes in what follows it. -/
def fenced : TranscriptContent where
  value := ['a', '\n', '=', '=', '\n', '~', '~', '~']
  fits := by decide
  printable := by decide

theorem fenced_opens_blocks :
    ¬ ∀ line ∈ lines (escape_markdown_text fenced.value), opens line = false := by
  decide

end multiplex_domain.transcript
