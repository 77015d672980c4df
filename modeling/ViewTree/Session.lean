import ViewTree.Data.Stored
import ViewTree.Markup.Writer
import ViewTree.Rendering.Page

namespace ViewTree

/-- The parts named so far; a name may stand for one part of each kind. -/
structure Session where
  references : List (String × Reference)
  values : List (String × Value)
  views : List (String × View)
  data : List (String × Data)
  nodes : List (String × Node)

namespace Session

def start : Session := ⟨[], [], [], [], []⟩

inductive Step where
  | reference (as : String) (place : Reference)
  | value (as : String) (value : Value)
  | element (as tag : String) (attributes : List (String × String)) (text : String)
  | list (as : String) (numbered : Bool) (source item : String)
  | sequence (as : String) (items : List String)
  | view (as : String) (view : View)
  | loadTemplate (as text : String)
  | loadView (as text : String)
  | nest (as view : String) (times : Nat) (inList : Bool)
  | store (view : String)
  | reload (as view : String)
  | equalViews (a b : String)
  | equalData (a b : String)
  | equalNodes (a b : String)
  | loadData (as text : String)
  | data (as : String) (data : Data)
  | resolve (as place context : String)
  | evaluate (value context : String)
  | render (as view context : String)
  | node (as : String) (node : Node)
  | fragment (as : String) (nodes : List String)
  | flatten (as node : String)
  | child (as node : String) (position : Nat)
  | attributeOf (node name : String)
  | markup (node : String) (options : MarkupOptions)

inductive Answer where
  | reference (place : Reference)
  | value (value : Value)
  | view (view : View)
  | nested (view : View)
  | text (text : String)
  | reloaded (same : Bool)
  | equal (same : Bool)
  | data (data : Data)
  | scalar (value : Scalar)
  | node (node : Node)
  | attributeOf (value : Option Scalar)

inductive StepError where
  | unknownName (name : String)
  | noChild (position : Nat)
  | load (error : LoadError)
  | render (error : RenderError)
deriving DecidableEq

def StepError.message : StepError → String
  | .unknownName name => name
  | .noChild position => Text.decimal position
  | .load error => error.message
  | .render error => error.message

def named (parts : List (String × α)) (name : String) : Except StepError α :=
  match Entries.find? name parts with
  | some part => .ok part
  | none => .error (.unknownName name)

def addReference (s : Session) (name : String) (part : Reference) : Session :=
  { s with references := Entries.insert name part s.references }

def addValue (s : Session) (name : String) (part : Value) : Session :=
  { s with values := Entries.insert name part s.values }

def addView (s : Session) (name : String) (part : View) : Session :=
  { s with views := Entries.insert name part s.views }

def addData (s : Session) (name : String) (part : Data) : Session :=
  { s with data := Entries.insert name part s.data }

def addNode (s : Session) (name : String) (part : Node) : Session :=
  { s with nodes := Entries.insert name part s.nodes }

def nest (inList : Bool) (view : View) : Nat → View
  | 0 => view
  | times + 1 =>
    if inList then .list false .data (nest inList view times) else .sequence [nest inList view times]

def step (s : Session) : Step → Except StepError (Answer × Session)
  | .reference as place => .ok (.reference place, s.addReference as place)
  | .value as value => .ok (.value value, s.addValue as value)
  | .element as tag attributes text => do
    let attributes ← attributes.mapM fun (name, value) => do .ok (name, ← named s.values value)
    let view := View.element tag attributes (← named s.values text)
    .ok (.view view, s.addView as view)
  | .list as numbered source item => do
    let source ← named s.references source
    let view := View.list numbered source (← named s.views item)
    .ok (.view view, s.addView as view)
  | .sequence as items => do
    let view := View.sequence (← items.mapM (named s.views))
    .ok (.view view, s.addView as view)
  | .view as view => .ok (.view view, s.addView as view)
  | .loadTemplate as text => do
    let template ← (Template.parse text).mapError .load
    .ok (.view template.code, s.addView as template.code)
  | .loadView as text => do
    let view ← ((View.parse text).mapError .malformed).mapError .load
    .ok (.view view, s.addView as view)
  | .nest as view times inList => do
    let view := nest inList (← named s.views view) times
    .ok (.nested view, s.addView as view)
  | .store view => do .ok (.text (Template.ofView (← named s.views view)).text, s)
  | .reload as view => do
    let view ← named s.views view
    let template ← (Template.parse (Template.ofView view).text).mapError .load
    .ok (.reloaded (template.code = view), s.addView as template.code)
  | .equalViews a b => do
    let a ← named s.views a
    .ok (.equal (a = (← named s.views b)), s)
  | .equalData a b => do
    let a ← named s.data a
    .ok (.equal (a.equal (← named s.data b)), s)
  | .equalNodes a b => do
    let a ← named s.nodes a
    .ok (.equal (a.equal (← named s.nodes b)), s)
  | .loadData as text => do
    let data ← (Data.load text).mapError .load
    .ok (.data data, s.addData as data)
  | .data as data => .ok (.data data, s.addData as data)
  | .resolve as place context => do
    let place ← named s.references place
    let data ← (place.resolve (← named s.data context)).mapError .render
    .ok (.data data, s.addData as data)
  | .evaluate value context => do
    let value ← named s.values value
    .ok (.scalar (← (value.evaluate (← named s.data context)).mapError .render), s)
  | .render as view context => do
    let view ← named s.views view
    let node ← (view.render (← named s.data context)).mapError .render
    .ok (.node node, s.addNode as node)
  | .node as node => .ok (.node node, s.addNode as node)
  | .fragment as nodes => do
    let node := Node.fragment (← nodes.mapM (named s.nodes))
    .ok (.node node, s.addNode as node)
  | .flatten as node => do
    let node := Node.fragment (← named s.nodes node).nodes
    .ok (.node node, s.addNode as node)
  | .child as node position => do
    match (← named s.nodes node).children[position]? with
    | some node => .ok (.node node, s.addNode as node)
    | none => .error (.noChild position)
  | .attributeOf node name => do
    let node ← named s.nodes node
    .ok (.attributeOf (node.head?.bind fun head => head.attribute? name), s)
  | .markup node options => do
    .ok (.text (← (Markup.write options (← named s.nodes node)).mapError .render), s)

end Session

end ViewTree
