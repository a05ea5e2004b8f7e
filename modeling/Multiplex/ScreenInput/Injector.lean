-- Pointer and keyboard injection, as `injector.rs` has it: one writer's input
-- turned into operating-system events, with a note of every key and button
-- still pressed. A post may fail, and nothing that ran before it is undone.
import Multiplex.Lib.SortedMap
import Multiplex.ScreenProtocol.Format

open multiplex_screen_codec multiplex_screen_protocol

namespace multiplex_screen_input

inductive InputError
  | NotHolder
  | UnknownSurface
  | UnmappedKey
  | NotPermitted
  | Unavailable

/-! ## Places on the displays -/

/-- The `f64` operations the source uses. Nothing below depends on what they compute. -/
structure Numbers (F : Type) where
  of_nat : Nat → F
  of_int : Int → F
  add : F → F → F
  sub : F → F → F
  mul : F → F → F
  trunc : F → F
  hypot : F → F → F
  eq : F → F → Bool
  le : F → F → Bool
  /-- `as i32`. -/
  to_i32 : F → Int32

structure Point (F : Type) where
  x : F
  y : F

structure DisplayPlacement (F : Type) where
  surface : UInt32
  pixels : Size
  origin : Point F
  points_per_pixel_x : F
  points_per_pixel_y : F

abbrev DisplayLayout (F : Type) := List (DisplayPlacement F)

def DisplayLayout.placement {F : Type} (layout : DisplayLayout F) (surface : UInt32) :
    Option (DisplayPlacement F) :=
  layout.find? fun placement => placement.surface == surface

section

variable {F : Type} (num : Numbers F)

/-- `Point: PartialEq`, field by field. -/
def Point.eq (a b : Point F) : Bool := num.eq a.x b.x && num.eq a.y b.y

def DisplayPlacement.to_global (p : DisplayPlacement F) (x y : UInt32) : Point F :=
  let x := min x.toNat (p.pixels.width - 1)
  let y := min y.toNat (p.pixels.height - 1)
  ⟨num.add p.origin.x (num.mul (num.of_nat x) p.points_per_pixel_x),
    num.add p.origin.y (num.mul (num.of_nat y) p.points_per_pixel_y)⟩

def DisplayPlacement.to_points (p : DisplayPlacement F) (dx dy : F) : F × F :=
  (num.mul dx p.points_per_pixel_x, num.mul dy p.points_per_pixel_y)

end

/-! ## Events -/

inductive InputEvent
  | PointerMove (surface x y : UInt32)
  | PointerButton (surface x y : UInt32) (button : PointerButton) (pressed : Bool)
  | Scroll (surface x y : UInt32) (dx dy : Int32)
  | Key (key : KeyEvent)
  | Text (surface : UInt32) (text : String)

inductive SinkEvent (F : Type)
  | PointerMove (at_ : Point F) (held : Option PointerButton) (modifiers : Modifiers)
  | PointerButton (at_ : Point F) (button : PointerButton) (pressed : Bool) (clicks : UInt8)
      (modifiers : Modifiers)
  | Scroll (at_ : Point F) (dx dy : Int32) (modifiers : Modifiers)
  | Key (usage : UInt16) (pressed repeated : Bool) (modifiers : Modifiers)
  | Text (text : List Char)

def TEXT_CHUNK_UTF16 : Nat := 20
def DOUBLE_CLICK_MS : Nat := 500
def DOUBLE_CLICK_DISTANCE_POINTS : Int := 4
def MAX_KEY_USAGE : UInt16 := 0xFF

def BUTTONS : List PointerButton := [.Primary, .Secondary, .Middle]

/-- `Modifiers::default()`. -/
def Modifiers.none : Modifiers := ⟨0, by decide⟩

structure LastPress (F : Type) where
  button : PointerButton
  at_ : Point F
  at_ms : UInt64
  clicks : UInt8

structure Injector (F : Type) where
  layout : DisplayLayout F
  holder : Option UInt64
  pointer : Option (Point F)
  /-- The click count of each button press still held. -/
  buttons : PointerButton → Option UInt8
  keys : SortedMap Nat Unit
  modifiers : Modifiers
  last_press : Option (LastPress F)
  scroll_remainder : F × F

/-- The injector and everything it has posted, with the outcome of each post. -/
structure World (F : Type) where
  injector : Injector F
  posts : List (SinkEvent F × Except InputError Unit)

/-- A call that may fail part of the way: the state it leaves stays. -/
abbrev InjectM (F : Type) := EStateM InputError (World F)

section

variable {F : Type} (num : Numbers F) (sink : Nat → Except InputError Unit)

def Injector.new (layout : DisplayLayout F) : Injector F :=
  ⟨layout, none, none, fun _ => none, SortedMap.empty, Modifiers.none, none,
    (num.of_int 0, num.of_int 0)⟩

/-- `self.sink.post(event)`: the sink decides the outcome of each post in turn. -/
def try_post (event : SinkEvent F) : InjectM F (Except InputError Unit) := do
  let w ← get
  let outcome := sink w.posts.length
  set { w with posts := w.posts ++ [(event, outcome)] }
  return outcome

/-- `self.sink.post(event)?`. -/
def post (event : SinkEvent F) : InjectM F Unit := do
  match ← try_post sink event with
  | .ok () => return ()
  | .error e => throw e

def update (f : Injector F → Injector F) : InjectM F Unit :=
  modify fun w => { w with injector := f w.injector }

def injector : InjectM F (Injector F) := do
  let w ← get
  return w.injector

/-! ## Letting go -/

/-- `result.and(posted)`. -/
def result_and (result posted : Except InputError Unit) : Except InputError Unit :=
  match result with
  | .ok () => posted
  | .error e => .error e

def release_keys (keys : List Nat) (result : Except InputError Unit) :
    InjectM F (Except InputError Unit) :=
  match keys with
  | [] => return result
  | usage :: keys => do
    let posted ← try_post sink (.Key (UInt16.ofNat usage) false false Modifiers.none)
    release_keys keys (result_and result posted)

def release_buttons (buttons : List PointerButton) (result : Except InputError Unit) :
    InjectM F (Except InputError Unit) :=
  match buttons with
  | [] => return result
  | button :: buttons => do
    let i ← injector
    update fun i => { i with buttons := Function.update i.buttons button none }
    match i.buttons button, i.pointer with
    | some clicks, some at_ => do
      let posted ← try_post sink (.PointerButton at_ button false clicks Modifiers.none)
      release_buttons buttons (result_and result posted)
    | _, _ => release_buttons buttons result

/-- Releases every key, then every button, that is still pressed. -/
def release_all : InjectM F (Except InputError Unit) := do
  let i ← injector
  update fun i => { i with keys := SortedMap.empty }
  let result ← release_keys sink (i.keys.entries.map Prod.fst) (.ok ())
  update fun i => { i with modifiers := Modifiers.none }
  release_buttons sink BUTTONS result

def set_holder (holder : Option UInt64) : InjectM F Unit := do
  let i ← injector
  if i.holder = holder then return ()
  else do
    let released ← release_all sink
    update fun i => { i with
      holder := holder
      last_press := none
      scroll_remainder := (num.of_int 0, num.of_int 0) }
    match released with
    | .ok () => return ()
    | .error e => throw e

def set_layout (layout : DisplayLayout F) : InjectM F Unit :=
  update fun i => { i with layout := layout }

/-! ## Injecting -/

def locate (surface x y : UInt32) : InjectM F (Point F) := do
  let i ← injector
  match i.layout.placement surface with
  | some placement => return placement.to_global num x y
  | none => throw .UnknownSurface

def held_button (i : Injector F) : Option PointerButton :=
  BUTTONS.find? fun button => (i.buttons button).isSome

/-- `self.pointer == Some(at)`. -/
def pointer_is (pointer : Option (Point F)) (at_ : Point F) : Bool :=
  match pointer with
  | some p => p.eq num at_
  | none => false

def move_to (at_ : Point F) : InjectM F Unit := do
  let i ← injector
  if !pointer_is num i.pointer at_ then do
    post sink (.PointerMove at_ (held_button i) i.modifiers)
    update fun i => { i with pointer := some at_ }

/-- The click count of a press: one more than the last press of that button when it was just now
and near. -/
def count_clicks (last_press : Option (LastPress F)) (at_ : Point F) (button : PointerButton)
    (now_ms : UInt64) : UInt8 :=
  match last_press with
  | some last =>
    if last.button = button ∧ now_ms.toNat - last.at_ms.toNat ≤ DOUBLE_CLICK_MS ∧
        num.le (num.hypot (num.sub last.at_.x at_.x) (num.sub last.at_.y at_.y))
          (num.of_int DOUBLE_CLICK_DISTANCE_POINTS) = true then
      if last.clicks = 255 then 255 else last.clicks + 1
    else 1
  | none => 1

def button (at_ : Point F) (button : PointerButton) (pressed : Bool) (now_ms : UInt64) :
    InjectM F Unit := do
  let i ← injector
  if pressed then
    if (i.buttons button).isSome then return ()
    else do
      let clicks := count_clicks num i.last_press at_ button now_ms
      post sink (.PointerButton at_ button true clicks i.modifiers)
      update fun i => { i with
        buttons := Function.update i.buttons button (some clicks)
        last_press := some ⟨button, at_, now_ms, clicks⟩ }
  else
    match i.buttons button with
    | none => return ()
    | some clicks => do
      update fun i => { i with buttons := Function.update i.buttons button none }
      post sink (.PointerButton at_ button false clicks i.modifiers)

def scroll (surface : UInt32) (at_ : Point F) (dx dy : Int32) : InjectM F Unit := do
  let i ← injector
  match i.layout.placement surface with
  | none => throw .UnknownSurface
  | some placement => do
    let (points_x, points_y) := placement.to_points num (num.of_int dx.toInt) (num.of_int dy.toInt)
    let total_x := num.add points_x i.scroll_remainder.1
    let total_y := num.add points_y i.scroll_remainder.2
    let whole_x := num.trunc total_x
    let whole_y := num.trunc total_y
    update fun i => { i with
      scroll_remainder := (num.sub total_x whole_x, num.sub total_y whole_y) }
    if num.eq whole_x (num.of_int 0) && num.eq whole_y (num.of_int 0) then return ()
    else post sink (.Scroll at_ (num.to_i32 whole_x) (num.to_i32 whole_y) i.modifiers)

def key (key : KeyEvent) : InjectM F Unit :=
  if key.usage > MAX_KEY_USAGE then throw .UnmappedKey
  else do
    update fun i => { i with modifiers := key.modifiers }
    let i ← injector
    if key.pressed then do
      post sink (.Key key.usage true (i.keys.contains key.usage.toNat) key.modifiers)
      update fun i => { i with keys := i.keys.insert key.usage.toNat () }
    else if i.keys.contains key.usage.toNat then do
      update fun i => { i with keys := i.keys.erase key.usage.toNat }
      post sink (.Key key.usage false false key.modifiers)
    else return ()

def len_utf16 (c : Char) : Nat := if c.toNat < 0x10000 then 1 else 2

/-- Pieces of at most `TEXT_CHUNK_UTF16` units, on character boundaries. -/
def text_chunks (text : List Char) (chunk : List Char) (units : Nat) : List (List Char) :=
  match text with
  | [] => if chunk.isEmpty then [] else [chunk]
  | c :: text =>
    if units + len_utf16 c > TEXT_CHUNK_UTF16 then chunk :: text_chunks text [c] (len_utf16 c)
    else text_chunks text (chunk ++ [c]) (units + len_utf16 c)

def post_chunks (chunks : List (List Char)) : InjectM F Unit :=
  match chunks with
  | [] => return ()
  | chunk :: chunks => do
    post sink (.Text chunk)
    post_chunks chunks

def inject (device : UInt64) (event : InputEvent) (now_ms : UInt64) : InjectM F Unit := do
  let i ← injector
  if i.holder ≠ some device then throw .NotHolder
  else
    match event with
    | .PointerMove surface x y => do
      let at_ ← locate num surface x y
      move_to num sink at_
    | .PointerButton surface x y b pressed => do
      let at_ ← locate num surface x y
      move_to num sink at_
      button num sink at_ b pressed now_ms
    | .Scroll surface x y dx dy => do
      let at_ ← locate num surface x y
      move_to num sink at_
      scroll num sink surface at_ dx dy
    | .Key k => key sink k
    | .Text surface text =>
      match i.layout.placement surface with
      | none => throw .UnknownSurface
      | some _ => post_chunks sink (text_chunks text.toList [] 0)

end

end multiplex_screen_input
