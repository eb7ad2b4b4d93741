import AowisMap.Lib.Run
import AowisMap.Lib.Hash
import AowisMap.Terrain.Types
import AowisMap.Server.Responses
import AowisMap.Server.Terrain
import AowisMap.Server.Proofs.Waiters
import AowisMap.Server.Proofs.SingleFlight
import AowisMap.Server.Proofs.Admission
import AowisMap.Lib.QString
import AowisMap.Maps.Types
import AowisMap.Maps.Downloads
import AowisMap.Maps.Proofs.Scheduler
import AowisMap.Maps.Tiles
import AowisMap.Maps.Proofs.Steps
import AowisMap.Maps.Proofs.Refinement
import AowisMap.Maps.Proofs.Held
import AowisMap.Server.Tiles
import AowisMap.Server.Proofs.Tiles
import AowisMap.Maps.Proofs.Deletion
import AowisMap.Lib.Crash
import AowisMap.Lib.QByteArray
import AowisMap.Terrain.ResumeState
import AowisMap.Terrain.Proofs.SourceDownload
import AowisMap.Terrain.SourceDownload
import AowisMap.Lib.LittleEndian
import AowisMap.Lib.Utf8
import AowisMap.Terrain.Tile
import AowisMap.Terrain.Proofs.TileFormat
import AowisMap.Terrain.Proofs.TileValidity
import AowisMap.Terrain.Proofs.TileRoundTrip
import AowisMap.Maps.Proofs.Precedence
import AowisMap.Maps.Proofs.HttpPath
import AowisMap.Maps.Proofs.Carried
import AowisMap.Maps.Proofs.Upstream
import AowisMap.Server.Watch
import AowisMap.Server.Proofs.Upstream
import AowisMap.Terrain.Proofs.TileAccepted
import AowisMap.Terrain.Proofs.TileStore
import AowisMap.Lib.Ini
import AowisMap.Server.Catalogue
import AowisMap.Server.Proofs.Catalogue
import AowisMap.Server.Proofs.Restart
import AowisMap.Server.Proofs.Sections
import AowisMap.Server.Proofs.Survival
import AowisMap.Terrain.Proofs.PartialState
import AowisMap.Terrain.Proofs.SourceFlush
import AowisMap.Lib.Cyclic
import AowisMap.Maps.Proofs.DeletionExact
import AowisMap.Terrain.Deletion
import AowisMap.Terrain.Proofs.Deletion
import AowisMap.Server.Proofs.Deletion
import AowisMap.Server.Admin
import AowisMap.Server.Proofs.Admin
import AowisMap.Lib.UnitCells
import AowisMap.Terrain.SourceDeletion
import AowisMap.Terrain.Proofs.SourceDeletion
import AowisMap.Terrain.Elevation
import AowisMap.Terrain.Proofs.Elevation
import AowisMap.Terrain.TileTree
import AowisMap.Terrain.Proofs.TileTree
import AowisMap.Lib.Rounding
import AowisMap.Terrain.SourceCells
import AowisMap.Terrain.Raster
import AowisMap.Terrain.AnalysisGrid
import AowisMap.Terrain.Proofs.AnalysisGrid
import AowisMap.Lib.Steps
import AowisMap.Terrain.Proofs.Raster
import AowisMap.Terrain.Proofs.SourceCells
import AowisMap.Terrain.RasterSet
import AowisMap.Terrain.Proofs.RasterSet
import AowisMap.Terrain.AreaAverage
import AowisMap.Terrain.TileSampling
import AowisMap.Terrain.Proofs.SourcePlan
import AowisMap.Terrain.DecodedBlocks
import AowisMap.Terrain.Proofs.DecodedBlocks
import AowisMap.Terrain.Proofs.TileReencoding
import AowisMap.Lib.Crc
import AowisMap.Terrain.Proofs.TileCrc
import AowisMap.Server.Coverage
import AowisMap.Server.Proofs.Coverage
import AowisMap.Server.CoverageSections
import AowisMap.Server.Proofs.CoverageSections
import AowisMap.Terrain.Proofs.ContentRange
import AowisMap.Lib.Path
import AowisMap.Terrain.TilePath
import AowisMap.Terrain.Proofs.TilePath
import AowisMap.Server.Proofs.Quoting
import AowisMap.Lib.FileTree
import AowisMap.Server.StateFile
import AowisMap.Server.Proofs.StateFile
import AowisMap.Terrain.LocalSources
import AowisMap.Terrain.Proofs.TilePlan
import AowisMap.Terrain.Proofs.GridPlan
import AowisMap.Terrain.Proofs.SourceStages
import AowisMap.Server.Proofs.CoveragePolygons
import AowisMap.Lib.Tally
import AowisMap.Terrain.Proofs.AreaAverage
import AowisMap.Terrain.Proofs.Seams
import AowisMap.Maps.TileHttpClient
import AowisMap.Maps.Proofs.TileHttpClient
import AowisMap.Maps.TileClients
import AowisMap.Maps.Proofs.Clients
import AowisMap.Server.TileClients
import AowisMap.Maps.Proofs.Images
import AowisMap.Server.Proofs.TileClients
import AowisMap.Server.Proofs.TileImages
import AowisMap.Maps.Proofs.PendingIo
import AowisMap.Terrain.Proofs.DeletedSources
import AowisMap.Server.Proofs.AdmissionCounters
import AowisMap.Maps.Proofs.FetchPolicy
import AowisMap.Server.Proofs.FetchPolicy
import AowisMap.Server.TileCoverage
import AowisMap.Server.Proofs.TileCoverage
import AowisMap.Server.Proofs.CoveredFetches
import AowisMap.Terrain.Proofs.SourceReception
import AowisMap.Lib.Tent
import AowisMap.Terrain.Proofs.Interpolation
import AowisMap.Terrain.Proofs.UnusablePrefix
import AowisMap.Server.Proofs.PolygonSearch
import AowisMap.Terrain.Proofs.SharedEdges
import AowisMap.Terrain.Proofs.TileFills
import AowisMap.Terrain.TileFills
import AowisMap.Terrain.Proofs.DeletionCoverage
