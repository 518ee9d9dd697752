import CompiledScript.Bytes.Crc32
import CompiledScript.Bytes.Window
import CompiledScript.Container.Extract
import CompiledScript.Container.Signature
import CompiledScript.Container.Unpack
import CompiledScript.Deflate.Bits
import CompiledScript.Deflate.Block
import CompiledScript.Deflate.Fault
import CompiledScript.Deflate.Inflate
import CompiledScript.Deflate.PrefixCode
import CompiledScript.Fault
import CompiledScript.Files.Fault
import CompiledScript.Files.Path
import CompiledScript.Files.Store
import CompiledScript.Files.Tree
import CompiledScript.Game
import CompiledScript.Listing
import CompiledScript.Log
import CompiledScript.Main
import CompiledScript.Names.Directory
import CompiledScript.Names.Line
import CompiledScript.Names.Table
import CompiledScript.Names.Text
import CompiledScript.Number.Binary32
import CompiledScript.Number.ByteOrder
import CompiledScript.Number.Significant
import CompiledScript.Opcode.Basic
import CompiledScript.Opcode.Encoding
import CompiledScript.Proofs.Bytes.Held
import CompiledScript.Proofs.Number.LittleEndian
import CompiledScript.Reader.Basic
import CompiledScript.Reader.Forward
import CompiledScript.Script.Batch
import CompiledScript.Script.Checksum
import CompiledScript.Script.Instructions
import CompiledScript.Script.Load
import CompiledScript.Script.Model
import CompiledScript.Script.Session
import CompiledScript.Text.Blank
import CompiledScript.Text.Digit
import CompiledScript.Text.Hex
import CompiledScript.Text.Line
import CompiledScript.Text.Printable
import CompiledScript.Text.Quoted
import CompiledScript.Text.Utf8
import CompiledScript.Tool.Arguments
import CompiledScript.Tool.Run
import CompiledScript.Proofs.Reader.Reads
import CompiledScript.Proofs.Script.Assembly
import CompiledScript.Proofs.Script.AssemblyDecoding
import CompiledScript.Proofs.Reader.Steady
import CompiledScript.Proofs.Script.CodeSize
import CompiledScript.Proofs.Script.Tiling
import CompiledScript.Proofs.Script.ExportSoundness
import CompiledScript.Proofs.Script.StoredTables
import CompiledScript.Proofs.Script.TableLoading
import CompiledScript.Proofs.Container.Packing
import CompiledScript.Proofs.Deflate.StoredStream
import CompiledScript.Proofs.Container.Unpacking
import CompiledScript.Proofs.Container.BlockHeaders
import CompiledScript.Proofs.Container.BlockChain
import CompiledScript.Proofs.Reader.Composed
import CompiledScript.Proofs.Script.Operands
import CompiledScript.Proofs.Script.DecodingFaults
import CompiledScript.Proofs.Script.LoadFaults
import CompiledScript.Proofs.Container.ExtractionFaults
import CompiledScript.Proofs.Container.AnnouncedSize
import CompiledScript.Proofs.FaultKinds
import CompiledScript.Proofs.Script.Naming
import CompiledScript.Proofs.Reader.Appended
import CompiledScript.Proofs.Container.AppendedBytes
import CompiledScript.Proofs.Script.AppendedBytes
import CompiledScript.Proofs.TrailingBytes
import CompiledScript.Proofs.Reader.Slices
import CompiledScript.Proofs.Script.LoadedHeader
import CompiledScript.Proofs.Container.ExtractedScripts
import CompiledScript.Proofs.Names.Grammar
import CompiledScript.Proofs.Text.Lines
import CompiledScript.Proofs.Names.GrammarReading
import CompiledScript.Proofs.Names.LineByLine
import CompiledScript.Proofs.Names.MalformedLine
import CompiledScript.Proofs.Text.Numerals
import CompiledScript.Proofs.Names.NormalForm
import CompiledScript.Proofs.Script.History
import CompiledScript.Proofs.Script.LocalDecoding
import CompiledScript.Proofs.Listing.Feeds
import CompiledScript.Proofs.Script.CodeExtent
import CompiledScript.Proofs.Listing.Layout
import CompiledScript.Proofs.Files.Paths
import CompiledScript.Proofs.Files.Systems
import CompiledScript.Proofs.Tool.Confinement
import CompiledScript.Proofs.Tool.Steps
import CompiledScript.Proofs.Script.Isolation
import CompiledScript.Proofs.Files.Trees
import CompiledScript.Proofs.Tool.ExtractedFiles
import CompiledScript.Proofs.Reader.StoredTexts
import CompiledScript.Proofs.Tool.Accounting
import CompiledScript.Proofs.Bytes.BitwiseChecksum
import CompiledScript.Proofs.Script.ChecksumScan
import CompiledScript.Proofs.Container.SignatureAutomaton
import CompiledScript.Proofs.Container.SignatureMatches
import CompiledScript.Proofs.Script.CitedTexts
import CompiledScript.Proofs.Script.SwitchTables
import CompiledScript.Proofs.Container.StreamTails
import CompiledScript.Proofs.Reader.Operations
import CompiledScript.Proofs.Script.StringOrder
import CompiledScript.Proofs.Script.Relocation
import CompiledScript.Proofs.Files.Listings
import CompiledScript.Proofs.Files.Walks
import CompiledScript.Proofs.Reader.TextRoundTrip
