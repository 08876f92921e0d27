import VirtualInfra.Command.Report

namespace VirtualInfra.Command.Listing

open Report

inductive Alignment where
  | left
  | right
deriving DecidableEq

structure Column (α : Type) where
  title : String
  width : Nat
  alignment : Alignment := .left
  cell : α → String

namespace Column

variable {α : Type}

def pad (c : Column α) (s : String) : String :=
  match c.alignment with
  | .left => padRight c.width s
  | .right => padLeft c.width s

end Column

def table {α : Type} (columns : List (Column α)) (records : List α) : List String :=
  " ".intercalate (columns.map fun c => c.pad c.title) ::
    records.map fun a => " ".intercalate (columns.map fun c => c.pad (c.cell a))

def orDash (s : Option String) : String := s.getD "-"

def flavours : List (Column Flavour) := [
  { title := "FLAVOUR", width := 16, cell := (·.id) },
  { title := "INSTANCETYPE", width := 24, cell := fun f => orDash (f.metadata.value? .instancetype) },
  { title := "PREFERENCE", width := 24, cell := fun f => orDash (f.metadata.value? .preference) }]

def images : List (Column Image) := [
  { title := "IMAGE", width := 16, cell := (·.id) },
  { title := "NAME", width := 24, cell := (·.name) },
  { title := "SIZE", width := 16, alignment := .right, cell := fun i => toString i.size.toNat }]

def networks : List (Column Network) := [
  { title := "NETWORK", width := 16, cell := (·.id) },
  { title := "NAME", width := 24, cell := (·.name) },
  { title := "TYPE", width := 10, cell := (·.kind.name) }]

def subnets : List (Column Subnet) := [
  { title := "SUBNET", width := 16, cell := (·.id) },
  { title := "NETWORK", width := 16, cell := fun s => orDash s.parent },
  { title := "CIDR", width := 20, cell := fun s => orDash s.range },
  { title := "ATTACHMENT", width := 24, cell := fun s => orDash (s.metadata.value? .attachment) }]

def lines (l : Location) (c : Catalogue) : List String :=
  s!"📄 {l}" :: "" :: table flavours c.flavours.values
    ++ "" :: table images c.images.values
    ++ "" :: table networks c.networks.values
    ++ "" :: table subnets c.subnets.values

def text (l : Location) (c : Catalogue) : String :=
  String.join ((lines l c).map (· ++ "\n"))

end VirtualInfra.Command.Listing
